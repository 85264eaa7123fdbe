import PaymentTarget.Proofs.Text

/-! # Positions in a text

A position is a number of bytes. A text can be cut where a character ends or
begins, and nowhere else, so that a part is in range exactly when the positions
at its ends are the sizes of what is in front of them.
-/

namespace PaymentTarget.Text

/-- The parts in front of a position and behind it, unless it is outside the text or inside a
character. -/
def splitAt? : Nat → Text → Option (Text × Text)
  | 0, t => some ([], t)
  | _ + 1, [] => none
  | n + 1, c :: rest =>
      if c.utf8Size ≤ n + 1 then
        (splitAt? (n + 1 - c.utf8Size) rest).map fun (before, after) => (c :: before, after)
      else none

/-- The part from one position to another. -/
def slice? (start stop : Nat) (t : Text) : Option Text :=
  (splitAt? stop t).bind fun (front, _) => (splitAt? start front).map Prod.snd

/-- The position of the last `sep`. -/
def findLast? (sep : Char) (t : Text) : Option Nat :=
  (t.splitLast? sep).map fun (before, _) => before.size

theorem splitAt?_size (before after : Text) :
    splitAt? before.size (before ++ after) = some (before, after) := by
  induction before with
  | nil => simp [splitAt?, size]
  | cons c rest ih =>
      have positive := c.utf8Size_pos
      obtain ⟨n, whole⟩ : ∃ n, size (c :: rest) = n + 1 :=
        Nat.exists_eq_add_one.mpr (Nat.lt_add_right _ positive)
      have inside : c.utf8Size ≤ n + 1 := by
        rw [← whole, size_cons]
        omega
      have behind : n + 1 - c.utf8Size = size rest := by
        rw [← whole, size_cons]
        omega
      rw [whole, List.cons_append, splitAt?, if_pos inside, behind, ih, Option.map_some]

theorem size_of_splitAt? {position : Nat} {t before after : Text}
    (cut : splitAt? position t = some (before, after)) :
    t = before ++ after ∧ before.size = position := by
  induction t generalizing position before with
  | nil =>
      cases position with
      | zero =>
          obtain ⟨rfl, rfl⟩ := Prod.mk.inj (Option.some.inj cut)
          exact ⟨rfl, rfl⟩
      | succ n => cases cut
  | cons c rest ih =>
      cases position with
      | zero =>
          obtain ⟨rfl, rfl⟩ := Prod.mk.inj (Option.some.inj cut)
          exact ⟨rfl, rfl⟩
      | succ n =>
          rw [splitAt?] at cut
          split at cut
          next inside =>
            obtain ⟨⟨front, back⟩, later, same⟩ := Option.map_eq_some_iff.mp cut
            obtain ⟨rfl, rfl⟩ := Prod.mk.inj same
            obtain ⟨rfl, sized⟩ := ih later
            refine ⟨rfl, ?_⟩
            rw [size_cons, sized]
            omega
          · cases cut

theorem splitAt?_eq_some_iff {position : Nat} {t before after : Text} :
    splitAt? position t = some (before, after) ↔ t = before ++ after ∧ before.size = position := by
  constructor
  · exact size_of_splitAt?
  · rintro ⟨rfl, rfl⟩
    exact splitAt?_size before after

theorem slice?_eq_some_iff {start stop : Nat} {t part : Text} :
    slice? start stop t = some part ↔ ∃ before after, t = before ++ part ++ after ∧
      before.size = start ∧ before.size + part.size = stop := by
  simp only [slice?, Option.bind_eq_some_iff, Option.map_eq_some_iff, Prod.exists,
    splitAt?_eq_some_iff]
  constructor
  · rintro ⟨front, after, ⟨rfl, sized⟩, before, _, ⟨rfl, start⟩, rfl⟩
    exact ⟨before, after, rfl, start, by rw [← size_append, sized]⟩
  · rintro ⟨before, after, rfl, start, sized⟩
    exact ⟨before ++ part, after, ⟨rfl, by rw [size_append, sized]⟩, before, part, ⟨rfl, start⟩, rfl⟩

theorem findLast?_append {sep : Char} (before : Text) {after : Text} (absent : sep ∉ after) :
    findLast? sep (before ++ sep :: after) = some before.size := by
  rw [findLast?, splitLast?_append before absent, Option.map_some]

end PaymentTarget.Text
