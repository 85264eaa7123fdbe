import PaymentTarget.Proofs.Text.Lines

/-! # Screened files

Nothing is lost when a file is screened, and nothing made up. Each line has its
decision under its number, and the counts are those of the outcomes of all
lines. They stand in alphabetical order whatever the order of the lines is, so
that they depend on nothing else than which lines there are, and how often.
-/

namespace PaymentTarget

namespace ScreenReport

variable {label other : String} {n : Nat} {counts : List (String × Nat)} {labels : List String}

/-- The outcomes stand in alphabetical order, each at one place. -/
abbrev Ascending (counts : List (String × Nat)) : Prop :=
  counts.Pairwise fun a b => a.1 < b.1

theorem mem_countLine_of_ne (unlike : other ≠ label) :
    (other, n) ∈ countLine label counts ↔ (other, n) ∈ counts := by
  induction counts with
  | nil => simp [countLine, unlike]
  | cons first rest ih =>
      unfold countLine
      split
      next same => simp [Prod.ext_iff, ← same, unlike]
      next =>
        split
        next => simp [unlike]
        next => rw [List.mem_cons, ih, List.mem_cons]

/-- The number of an outcome is one more than before, or one if it is new. -/
theorem mem_countLine_self (ascending : Ascending counts) :
    (label, n) ∈ countLine label counts ↔
      (∃ m, (label, m) ∈ counts ∧ n = m + 1) ∨ (∀ m, (label, m) ∉ counts) ∧ n = 1 := by
  induction counts with
  | nil => simp [countLine]
  | cons first rest ih =>
      obtain ⟨before, later⟩ := List.pairwise_cons.mp ascending
      unfold countLine
      split
      next same =>
        have once : ∀ m, (label, m) ∉ rest := fun m member =>
          lt_irrefl label (by simpa [← same] using before _ member)
        simp [Prod.ext_iff, ← same, once]
      next unlike =>
        split
        next early =>
          have absent : ∀ m, (label, m) ∉ rest := fun m member =>
            lt_asymm early (before _ member)
          simp [Prod.ext_iff, unlike, absent]
        next => simp [Prod.ext_iff, unlike, ih later]

theorem ascending_countLine (ascending : Ascending counts) : Ascending (countLine label counts) := by
  induction counts with
  | nil => exact List.pairwise_singleton _ _
  | cons first rest ih =>
      obtain ⟨before, later⟩ := List.pairwise_cons.mp ascending
      unfold countLine
      split
      next => exact List.pairwise_cons.mpr ⟨before, later⟩
      next unlike =>
        split
        next early =>
          refine List.pairwise_cons.mpr ⟨?_, ascending⟩
          intro entry member
          rcases List.mem_cons.mp member with rfl | member
          · exact early
          · exact early.trans (before entry member)
        next late =>
          refine List.pairwise_cons.mpr ⟨?_, ih later⟩
          rintro ⟨other, n⟩ member
          by_cases same : other = label
          · rw [same]
            exact lt_of_le_of_ne (not_lt.mp late) (Ne.symm unlike)
          · exact before _ ((mem_countLine_of_ne same).mp member)

theorem sum_countLine :
    ((countLine label counts).map Prod.snd).sum = (counts.map Prod.snd).sum + 1 := by
  induction counts with
  | nil => rfl
  | cons first rest ih =>
      unfold countLine
      split
      next => simp only [List.map_cons, List.sum_cons]; omega
      next =>
        split
        next => simp only [List.map_cons, List.sum_cons]; omega
        next => simp only [List.map_cons, List.sum_cons, ih]; omega

/-- The counts of these outcomes. -/
structure Tallies (labels : List String) (counts : List (String × Nat)) : Prop where
  ascending : Ascending counts
  mem_iff : ∀ label n, (label, n) ∈ counts ↔ 0 < n ∧ labels.count label = n
  total : (counts.map Prod.snd).sum = labels.length

namespace Tallies

theorem concat (tallies : Tallies labels counts) (label : String) :
    Tallies (labels ++ [label]) (countLine label counts) := by
  refine ⟨ascending_countLine tallies.ascending, ?_, ?_⟩
  · intro other n
    by_cases same : other = label
    · rw [same, mem_countLine_self tallies.ascending]
      simp only [tallies.mem_iff, List.count_append, List.count_singleton_self]
      constructor
      · rintro (⟨m, ⟨-, rfl⟩, rfl⟩ | ⟨fresh, rfl⟩)
        · exact ⟨by omega, rfl⟩
        · have zero := fresh (labels.count label)
          omega
      · rintro ⟨-, rfl⟩
        by_cases old : 0 < labels.count label
        · exact .inl ⟨_, ⟨old, rfl⟩, rfl⟩
        · exact .inr ⟨by omega, by omega⟩
    · have apart : List.count other [label] = 0 := by simp [Ne.symm same]
      rw [mem_countLine_of_ne same, tallies.mem_iff, List.count_append, apart, Nat.add_zero]
  · rw [sum_countLine, tallies.total, List.length_append, List.length_singleton]

theorem foldl (labels : List String) :
    Tallies labels (labels.foldl (fun counts label => countLine label counts) []) := by
  induction labels using List.reverseRecOn with
  | nil => exact ⟨.nil, by simp; omega, rfl⟩
  | append_singleton labels label ih =>
      rw [List.foldl_append]
      exact ih.concat label

theorem mem_map_fst_iff (tallies : Tallies labels counts) :
    label ∈ counts.map Prod.fst ↔ label ∈ labels := by
  rw [← List.count_pos_iff (l := labels)]
  constructor
  · intro occurs
    obtain ⟨⟨label, n⟩, member, rfl⟩ := List.mem_map.mp occurs
    obtain ⟨positive, count⟩ := (tallies.mem_iff label n).mp member
    exact count ▸ positive
  · intro positive
    exact List.mem_map_of_mem (f := Prod.fst) ((tallies.mem_iff label _).mpr ⟨positive, rfl⟩)

/-- Counts do not depend on the order of what is counted. -/
theorem eq_of_perm {labels' : List String} {counts' : List (String × Nat)}
    (tallies : Tallies labels counts) (tallies' : Tallies labels' counts')
    (perm : labels.Perm labels') : counts = counts' := by
  have irrefl : Std.Irrefl fun a b : String × Nat => a.1 < b.1 := ⟨fun a => lt_irrefl a.1⟩
  have antisymm : Std.Antisymm fun a b : String × Nat => a.1 < b.1 :=
    ⟨fun _ _ early late => absurd late (lt_asymm early)⟩
  apply tallies.ascending.eq_of_mem_iff tallies'.ascending
  rintro ⟨label, n⟩
  rw [tallies.mem_iff, tallies'.mem_iff, perm.count_eq]

end Tallies

variable {s : Settings} {input contents : Text}

theorem foldl_addLine (r : ScreenReport) (lines : List (Text × Nat)) :
    lines.foldl (addLine s) r =
      { r with
        numbered := r.numbered ++ lines.map fun line => (line.2, s.decide line.1)
        counts := (lines.map fun line => (s.decide line.1).label).foldl
          (fun counts label => countLine label counts) r.counts } := by
  induction lines generalizing r with
  | nil => simp
  | cons line lines ih => simp [ih, addLine]

theorem numbered_ofContents :
    (ofContents s input contents).numbered =
      (contents.lines.zipIdx 1).map fun line => (line.2, s.decide line.1) := by
  rw [ofContents, foldl_addLine, List.nil_append]

theorem tallies_ofContents :
    Tallies (contents.lines.map fun line => (s.decide line).label)
      (ofContents s input contents).counts := by
  have texts : (contents.lines.zipIdx 1).map (fun line => (s.decide line.1).label) =
      contents.lines.map fun line => (s.decide line).label := by
    have byText : (fun line : Text × Nat => (s.decide line.1).label) =
        (fun line => (s.decide line).label) ∘ Prod.fst := rfl
    rw [byText, ← List.map_map, List.zipIdx_map_fst]
  rw [ofContents, foldl_addLine, texts]
  exact .foldl _

theorem getElem?_numbered {t : Text} (line : contents.lines[n]? = some t) :
    (ofContents s input contents).numbered[n]? = some (n + 1, s.decide t) := by
  rw [numbered_ofContents, List.getElem?_map, List.getElem?_zipIdx, line]
  simp [Nat.add_comm]

/-- The report tells what is decided on each of these lines, and counts them all. -/
structure Tells (s : Settings) (lines : List Text) (r : ScreenReport) : Prop where
  length : r.numbered.length = lines.length
  decided : ∀ n t, lines[n]? = some t → r.numbered[n]? = some (n + 1, s.decide t)
  ascending : Ascending r.counts
  occurs : ∀ label, label ∈ r.counts.map Prod.fst ↔ ∃ t ∈ lines, (s.decide t).label = label
  counted : ∀ label n, (label, n) ∈ r.counts →
    lines.countP (fun t => (s.decide t).label = label) = n
  total : (r.counts.map Prod.snd).sum = lines.length

theorem tells_ofContents : (ofContents s input contents).Tells s contents.lines := by
  have tallies : Tallies _ (ofContents s input contents).counts := tallies_ofContents
  refine ⟨?_, fun _ _ => getElem?_numbered, tallies.ascending, ?_, ?_, ?_⟩
  · rw [numbered_ofContents, List.length_map, List.length_zipIdx]
  · intro label
    rw [tallies.mem_map_fst_iff, List.mem_map]
  · intro label n member
    obtain ⟨-, count⟩ := (tallies.mem_iff label n).mp member
    rw [← count, List.count, List.countP_map]
    rfl
  · rw [tallies.total, List.length_map]

/-- Of lines with any ends all are told, and nothing else. The counts are the same for the same
lines in another order. -/
theorem tells_rows (s : Settings) (input : Text) (rows : List (Text × Text.LineEnd))
    (sound : ∀ row ∈ rows, Text.IsLine row.1) :
    (ofContents s input (Text.ofRows rows)).Tells s (rows.map Prod.fst) ∧
      ∀ (input' : Text) (rows' : List (Text × Text.LineEnd)),
        (rows'.map Prod.fst).Perm (rows.map Prod.fst) →
        (ofContents s input' (Text.ofRows rows')).counts =
          (ofContents s input (Text.ofRows rows)).counts := by
  have lines := Text.lines_ofRows sound
  refine ⟨lines ▸ tells_ofContents, ?_⟩
  intro input' rows' perm
  have sound' : ∀ row ∈ rows', Text.IsLine row.1 := by
    intro row member
    obtain ⟨row', member', same⟩ := List.mem_map.mp (perm.subset (List.mem_map_of_mem member))
    exact same ▸ sound row' member'
  have lines' := Text.lines_ofRows sound'
  apply Tallies.eq_of_perm tallies_ofContents tallies_ofContents
  rw [lines, lines']
  exact perm.map _

/-- An empty line, an address and a text that is no destination, with both ends. -/
theorem tells_rows_mixed :
    let address : Text := "bc1qw508d6qejxtdg4y5r3zarvary0c5xw7kv8f3t4".toList
    let rows : List (Text × Text.LineEnd) :=
      [([], .returnAndFeed), (address, .feed), (['x'], .returnAndFeed), (['y'], .feed)]
    let report := ofContents {} [] (Text.ofRows rows)
    report.Tells {} [[], address, ['x'], ['y']] ∧
      (ofContents {} [] (Text.ofRows rows.reverse)).counts = report.counts ∧
      report.counts = [("empty_input", 1), ("on_chain_address", 1),
        ("unparseable_destination", 2)] := by
  intro address rows report
  have sound : ∀ row ∈ rows, Text.IsLine row.1 := by
    simp only [rows, List.forall_mem_cons]
    exact ⟨⟨by decide, by decide⟩, ⟨by decide, by decide⟩, ⟨by decide, by decide⟩,
      ⟨by decide, by decide⟩, by simp⟩
  obtain ⟨tells, perm⟩ := tells_rows {} [] rows sound
  have counts : report.counts = [("empty_input", 1), ("on_chain_address", 1),
      ("unparseable_destination", 2)] := by
    decide +kernel
  exact ⟨tells, perm [] _ ((List.reverse_perm rows).map Prod.fst), counts⟩

end ScreenReport

end PaymentTarget
