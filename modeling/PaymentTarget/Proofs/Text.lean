import PaymentTarget.Proofs.Result
import PaymentTarget.Text.Basic

/-! # Cuts and letter case

A cut at the first separator is determined by the part in front of it, and one
at the last separator by the part behind it, which hold none. Small letters are
what `lower` leaves alone, and a text of small letters has one case; as the
letters are ASCII, neither case is longer than the other.
-/

namespace PaymentTarget.Text

theorem splitFirst?_append {sep : Char} {before : Text} (absent : sep ∉ before) (after : Text) :
    splitFirst? sep (before ++ sep :: after) = some (before, after) := by
  induction before with
  | nil => simp only [List.nil_append, splitFirst?, if_true]
  | cons c rest ih =>
      obtain ⟨different, absent⟩ := List.ne_and_not_mem_of_not_mem_cons absent
      simp only [List.cons_append, splitFirst?, if_neg (Ne.symm different), ih absent,
        Option.map_some]

theorem splitFirst?_eq_none_iff {sep : Char} {t : Text} : splitFirst? sep t = none ↔ sep ∉ t := by
  constructor
  · intro uncut member
    obtain ⟨before, after, rfl, absent⟩ := List.eq_append_cons_of_mem member
    rw [splitFirst?_append absent] at uncut
    cases uncut
  · intro absent
    cases cut : splitFirst? sep t with
    | none => rfl
    | some parts =>
        rw [eq_of_splitFirst? cut] at absent
        exact absurd (List.mem_append_right _ List.mem_cons_self) absent

theorem splitFirst?_eq_some_iff {sep : Char} {t before after : Text} :
    splitFirst? sep t = some (before, after) ↔ sep ∉ before ∧ t = before ++ sep :: after := by
  constructor
  · intro cut
    have whole := eq_of_splitFirst? cut
    have member : sep ∈ t := by
      rw [whole]
      exact List.mem_append_right _ List.mem_cons_self
    obtain ⟨a, b, same, absent⟩ := List.eq_append_cons_of_mem member
    rw [same, splitFirst?_append absent, Option.some.injEq, Prod.mk.injEq] at cut
    exact ⟨cut.1 ▸ absent, whole⟩
  · rintro ⟨absent, rfl⟩
    exact splitFirst?_append absent after

theorem splitLast?_eq_none {sep : Char} {t : Text} (absent : sep ∉ t) :
    splitLast? sep t = none := by
  induction t with
  | nil => rfl
  | cons c rest ih =>
      obtain ⟨different, absent⟩ := List.ne_and_not_mem_of_not_mem_cons absent
      simp only [splitLast?, ih absent, if_neg (Ne.symm different)]

theorem splitLast?_append {sep : Char} (before : Text) {after : Text} (absent : sep ∉ after) :
    splitLast? sep (before ++ sep :: after) = some (before, after) := by
  induction before with
  | nil => simp only [List.nil_append, splitLast?, splitLast?_eq_none absent, if_true]
  | cons c rest ih => simp only [List.cons_append, splitLast?, ih]

/-- Texts agree on both sides of a separator that neither has behind it. -/
theorem append_separator_inj {sep : Char} {a b x y : Text} (absent : sep ∉ x) (absent' : sep ∉ y)
    (same : a ++ sep :: x = b ++ sep :: y) : a = b ∧ x = y := by
  have cut := splitLast?_append a absent
  rw [same, splitLast?_append b absent', Option.some.injEq, Prod.mk.injEq] at cut
  exact ⟨cut.1.symm, cut.2.symm⟩

theorem lower_append (a b : Text) : lower (a ++ b) = lower a ++ lower b :=
  List.map_append

theorem lower_lower (t : Text) : lower (lower t) = lower t := by
  simp only [lower, List.map_map, Function.comp_def, Char.toLower_toLower_eq_toLower]

theorem lower_take (n : Nat) (t : Text) : lower (t.take n) = (lower t).take n :=
  List.map_take

theorem toLower_of_mem_lower {c : Char} {t : Text} (member : c ∈ lower t) : c.toLower = c := by
  obtain ⟨d, -, rfl⟩ := List.mem_map.mp member
  exact Char.toLower_toLower_eq_toLower d

theorem isMixedCase_of_lower {t : Text} (small : lower t = t) : t.isMixedCase = false := by
  have noCapital : t.any Char.isUpper = false := by
    rw [← small, lower, List.any_map, List.any_eq_false]
    intro c _
    simp
  simp only [isMixedCase, noCapital, Bool.false_and]

theorem isUpper_iff {c : Char} : c.isUpper ↔ 65 ≤ c.toNat ∧ c.toNat ≤ 90 := by
  simp [Char.isUpper, UInt32.le_iff_toNat_le, ← Char.toNat_val]

theorem isLower_iff {c : Char} : c.isLower ↔ 97 ≤ c.toNat ∧ c.toNat ≤ 122 := by
  simp [Char.isLower, UInt32.le_iff_toNat_le, ← Char.toNat_val]

theorem isDigit_iff {c : Char} : c.isDigit ↔ 48 ≤ c.toNat ∧ c.toNat ≤ 57 := by
  simp [Char.isDigit, UInt32.le_iff_toNat_le, ← Char.toNat_val]

theorem toNat_lt_of_isAlphanum {c : Char} (alphanumeric : c.isAlphanum = true) :
    c.toNat < 128 := by
  simp only [Char.isAlphanum, Char.isAlpha, Bool.or_eq_true, isUpper_iff, isLower_iff,
    isDigit_iff] at alphanumeric
  omega

theorem utf8Size_of_lt {c : Char} (ascii : c.toNat < 128) : c.utf8Size = 1 := by
  have bound : c.val.toNat ≤ 127 := by
    rw [Char.toNat_val]
    omega
  exact Char.utf8Size_eq_one_iff.mpr (UInt32.le_iff_toNat_le.mpr bound)

theorem toNat_toLower {c : Char} (capital : c.isUpper = true) : c.toLower.toNat = c.toNat + 32 := by
  have range := isUpper_iff.mp capital
  rw [Char.toLower_eq_of_isUpper capital]
  rw [Char.toNat_ofNat, if_pos (Or.inl (by omega))]

theorem utf8Size_toLower (c : Char) : c.toLower.utf8Size = c.utf8Size := by
  by_cases capital : c.isUpper = true
  · have range := isUpper_iff.mp capital
    have moved := toNat_toLower capital
    rw [utf8Size_of_lt (c := c) (by omega), utf8Size_of_lt (by omega)]
  · rw [Char.toLower_eq_of_not_isUpper capital]

theorem size_lower (t : Text) : t.lower.size = t.size := by
  simp only [size, lower, List.foldr_map, utf8Size_toLower]

theorem eq_separator_of_toLower {c : Char} (small : c.toLower = '1') : c = '1' := by
  by_cases capital : c.isUpper = true
  · have range := isUpper_iff.mp capital
    have moved := toNat_toLower capital
    rw [small] at moved
    have one : '1'.toNat = 49 := rfl
    omega
  · rwa [Char.toLower_eq_of_not_isUpper capital] at small

theorem separator_not_mem_lower {t : Text} (absent : '1' ∉ t) : '1' ∉ t.lower := by
  intro member
  obtain ⟨c, inside, small⟩ := List.mem_map.mp member
  exact absent (eq_separator_of_toLower small ▸ inside)

/-- The part before the last `1` can be made small before or after the cut. -/
theorem lower_eq_append_separator_iff {t small : Text} :
    (∃ rest, t.lower = small ++ '1' :: rest ∧ '1' ∉ rest) ↔
      ∃ before after : Text, t = before ++ '1' :: after ∧ '1' ∉ after ∧ before.lower = small := by
  constructor
  · rintro ⟨rest, whole, absent⟩
    obtain ⟨before, tail, rfl, rfl, tail'⟩ := List.map_eq_append_iff.mp whole
    obtain ⟨c, after, rfl, separator, rfl⟩ := List.map_eq_cons_iff.mp tail'
    obtain rfl := eq_separator_of_toLower separator
    refine ⟨before, after, rfl, ?_, rfl⟩
    intro member
    exact absent (List.mem_map.mpr ⟨'1', member, rfl⟩)
  · rintro ⟨before, after, rfl, absent, rfl⟩
    exact ⟨after.lower, lower_append _ _, separator_not_mem_lower absent⟩

theorem size_cons (c : Char) (t : Text) : size (c :: t) = c.utf8Size + size t :=
  rfl

theorem size_eq_zero_iff {t : Text} : t.size = 0 ↔ t = [] := by
  cases t with
  | nil => simp [size]
  | cons c rest =>
      have positive := c.utf8Size_pos
      simp only [size_cons, reduceCtorEq, iff_false]
      omega

theorem size_append (a b : Text) : size (a ++ b) = size a + size b := by
  induction a with
  | nil => simp [size]
  | cons c rest ih =>
      simp only [size, List.cons_append, List.foldr_cons] at ih ⊢
      rw [ih, Nat.add_assoc]

theorem size_le_of_infix {a t : Text} (inside : a <:+: t) : size a ≤ size t := by
  obtain ⟨before, after, rfl⟩ := inside
  rw [size_append, size_append]
  omega

theorem size_eq_length {t : Text} (ascii : ∀ c ∈ t, c.toNat < 128) : size t = t.length := by
  induction t with
  | nil => rfl
  | cons c rest ih =>
      obtain ⟨first, later⟩ := List.forall_mem_cons.mp ascii
      have behind := ih later
      simp only [size, List.foldr_cons, List.length_cons] at behind ⊢
      rw [behind, utf8Size_of_lt first, Nat.add_comm]

theorem lower_upper (t : Text) : lower (upper t) = lower t := by
  simp only [lower, upper, List.map_map, Function.comp_def, Char.toLower_toUpper_eq_toLower]

theorem upper_lower (t : Text) : upper (lower t) = upper t := by
  simp only [lower, upper, List.map_map, Function.comp_def, Char.toUpper_toLower_eq_toUpper]

theorem lower_eq_self {t : Text} (small : t.any Char.isUpper = false) : lower t = t := by
  rw [List.any_eq_false] at small
  conv_rhs => rw [← List.map_id t]
  apply List.map_congr_left
  intro c member
  exact Char.toLower_eq_of_not_isUpper (small c member)

theorem upper_eq_self {t : Text} (large : t.any Char.isLower = false) : upper t = t := by
  rw [List.any_eq_false] at large
  conv_rhs => rw [← List.map_id t]
  apply List.map_congr_left
  intro c member
  exact Char.toUpper_eq_of_not_isLower (large c member)

/-- A text of one letter case is its small form or the capitals of that. -/
theorem singleCase_iff {t small : Text} (isSmall : lower small = small) :
    (t.isMixedCase = false ∧ lower t = small) ↔ t = small ∨ t = upper small := by
  constructor
  · rintro ⟨single, rfl⟩
    rw [isMixedCase, Bool.and_eq_false_iff] at single
    rcases single with noCapital | noSmall
    · exact .inl (lower_eq_self noCapital).symm
    · rw [upper_lower]
      exact .inr (upper_eq_self noSmall).symm
  · rintro (rfl | rfl)
    · exact ⟨isMixedCase_of_lower isSmall, isSmall⟩
    · have noSmall : (upper small).any Char.isLower = false := by
        rw [upper, List.any_map, List.any_eq_false]
        intro c _
        simp
      rw [isMixedCase, noSmall, Bool.and_false, lower_upper]
      exact ⟨rfl, isSmall⟩

/-- In a text of one letter case no two characters differ in case alone. -/
theorem eq_of_toLower_eq {t : Text} (single : t.isMixedCase = false) {x y : Char} (hx : x ∈ t)
    (hy : y ∈ t) (same : x.toLower = y.toLower) : x = y := by
  rcases (singleCase_iff (lower_lower t)).mp ⟨single, rfl⟩ with small | large
  · rw [small] at hx hy
    rw [← toLower_of_mem_lower hx, same, toLower_of_mem_lower hy]
  · rw [upper_lower] at large
    rw [large] at hx hy
    obtain ⟨c, -, rfl⟩ := List.mem_map.mp hx
    obtain ⟨d, -, rfl⟩ := List.mem_map.mp hy
    rw [← Char.toUpper_toUpper_eq_toUpper c, ← Char.toUpper_toLower_eq_toUpper, same,
      Char.toUpper_toLower_eq_toUpper, Char.toUpper_toUpper_eq_toUpper]

end PaymentTarget.Text
