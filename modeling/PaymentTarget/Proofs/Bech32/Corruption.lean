import PaymentTarget.Proofs.Address.Segwit
import PaymentTarget.Proofs.Invoice.Layout

/-! # Corrupted words are refused

When up to six neighbouring characters behind the separator are replaced, the
old word and the new one cannot both leave the residue of one variant, however
long they are. Invoices have one variant. Segwit addresses have two, and their
version chooses between them: the promise for them holds as long as a version
other than zero does not become zero, nor zero another version.
-/

namespace PaymentTarget

/-- A text before and after some of its characters were replaced. -/
structure Corruption where
  /-- The part in front of the separator. -/
  hrp : Text
  before : Text
  /-- The characters that were replaced. -/
  old : Text
  /-- What stands in their place. -/
  new : Text
  after : Text
  /-- The separator is the last `1`, and stays it when symbols are written behind it. -/
  separated : '1' ∉ before ++ (old ++ after)
  separated' : '1' ∉ before ++ (new ++ after)
  sameLength : old.length = new.length
  short : old.length ≤ 6
  differs : old.lower ≠ new.lower

namespace Corruption

def original (c : Corruption) : Text :=
  c.hrp ++ '1' :: (c.before ++ (c.old ++ c.after))

def corrupted (c : Corruption) : Text :=
  c.hrp ++ '1' :: (c.before ++ (c.new ++ c.after))

end Corruption

/-- The first character behind the separator is the one of version zero. -/
def Text.StatesVersionZero (t : Text) : Prop :=
  ∃ hrp tail, t.lower = hrp ++ '1' :: 'q' :: tail ∧ '1' ∉ tail

/-- What is accepted before a change is refused after it. -/
structure Detected (original corrupted : Text) : Prop where
  invoice : (∃ i, Invoice.read original = .ok i) →
    ∃ failure, Invoice.read corrupted = .error failure
  segwit : (∃ a, Address.readSegwit original = .ok a) →
    (original.StatesVersionZero ↔ corrupted.StatesVersionZero) →
      ∃ failure, Address.readSegwit corrupted = .error failure

theorem Word.parts_of_read? {hrp tail : Text} {w : Word} (separated : '1' ∉ tail)
    (read : Word.read? (hrp ++ '1' :: tail) = some w) :
    hrp.lower = w.hrp ∧ tail.lower = w.symbols.map Symbol.toChar := by
  obtain ⟨-, -, written⟩ := Word.read?_eq_some_iff.mp read
  rw [Text.lower_append] at written
  exact Text.append_separator_inj (Text.separator_not_mem_lower separated)
    (Symbol.separator_not_mem w.symbols) written

namespace Corruption

/-- The symbols of the two words are those around the window and those in it. -/
theorem symbols_of_read? {c : Corruption} {w w' : Word} (read : Word.read? c.original = some w)
    (read' : Word.read? c.corrupted = some w') :
    w.hrp = w'.hrp ∧ ∃ before old new after : List Symbol,
      w.symbols = before ++ (old ++ after) ∧ w'.symbols = before ++ (new ++ after) ∧
        old.map Symbol.toChar = c.old.lower ∧ new.map Symbol.toChar = c.new.lower := by
  obtain ⟨hrp, tail⟩ := Word.parts_of_read? c.separated read
  obtain ⟨hrp', tail'⟩ := Word.parts_of_read? c.separated' read'
  rw [Text.lower_append, Text.lower_append] at tail tail'
  obtain ⟨before, rest, symbols, hbefore, hrest⟩ := List.append_eq_map_iff.mp tail
  obtain ⟨old, after, rfl, hold, hafter⟩ := List.append_eq_map_iff.mp hrest.symm
  obtain ⟨before', rest', symbols', hbefore', hrest'⟩ := List.append_eq_map_iff.mp tail'
  obtain ⟨new, after', rfl, hnew, hafter'⟩ := List.append_eq_map_iff.mp hrest'.symm
  obtain rfl : before = before' := Symbol.map_toChar_injective (hbefore.trans hbefore'.symm)
  obtain rfl : after = after' := Symbol.map_toChar_injective (hafter.trans hafter'.symm)
  exact ⟨hrp.symm.trans hrp', before, old, new, after, symbols, symbols', hold, hnew⟩

theorem not_checks {c : Corruption} {w w' : Word} {v : ChecksumVariant}
    (read : Word.read? c.original = some w) (read' : Word.read? c.corrupted = some w')
    (valid : w.checks v = true) : w'.checks v = false := by
  rw [Bool.eq_false_iff]
  intro valid'
  obtain ⟨hrp, before, old, new, after, symbols, symbols', hold, hnew⟩ :=
    symbols_of_read? read read'
  simp only [Word.checks, Bool.and_eq_true, beq_iff_eq] at valid valid'
  have length : old.length = c.old.length := by
    rw [← List.length_map (f := Symbol.toChar), hold, Text.lower, List.length_map]
  have length' : new.length = c.new.length := by
    rw [← List.length_map (f := Symbol.toChar), hnew, Text.lower, List.length_map]
  have equal := valid.2.trans valid'.2.symm
  rw [symbols, symbols', hrp] at equal
  simp only [Residue.ofSymbols, Residue.absorb_append _ (Hrp.expand _)] at equal
  have same : old = new := by
    apply Residue.eq_of_absorb_eq _ _ equal
    · rw [length, length', c.sameLength]
    · rw [length]
      exact c.short
  apply c.differs
  rw [← hold, ← hnew, same]

theorem statesVersionZero_iff {t : Text} {p : SegwitProgram}
    (program : SegwitProgram.read? t = some p) : t.StatesVersionZero ↔ p.version = 0#5 := by
  obtain ⟨-, -, -, written⟩ := SegwitProgram.read?_eq_some_iff.mp program
  have zero : Symbol.toChar 0#5 = 'q' := by decide
  have spelled : p.write = p.hrp ++ '1' :: p.version.toChar ::
      (p.word.symbols.tail.map Symbol.toChar) := rfl
  rw [Text.StatesVersionZero, written, spelled]
  have separated := Symbol.separator_not_mem (p.version :: p.word.symbols.tail)
  constructor
  · rintro ⟨hrp, tail, same, absent⟩
    have absent' : '1' ∉ 'q' :: tail := by simp [absent]
    obtain ⟨-, symbols⟩ := Text.append_separator_inj separated absent' same
    rw [List.map_cons, List.cons.injEq, ← zero] at symbols
    exact Symbol.toChar_inj.mp symbols.1
  · intro version
    refine ⟨p.hrp, p.word.symbols.tail.map Symbol.toChar, ?_, Symbol.separator_not_mem _⟩
    rw [version, zero]

theorem readInvoice_refused {c : Corruption} (accepted : ∃ i, Invoice.read c.original = .ok i) :
    ∃ failure, Invoice.read c.corrupted = .error failure := by
  obtain ⟨i, accepted⟩ := accepted
  obtain ⟨w, read, -, valid, -⟩ := Invoice.read_eq_ok_iff.mp accepted
  cases result : Invoice.read c.corrupted with
  | error failure => exact ⟨failure, rfl⟩
  | ok i' =>
      obtain ⟨w', read', -, valid', -⟩ := Invoice.read_eq_ok_iff.mp result
      rw [not_checks read read' valid] at valid'
      cases valid'

theorem readSegwit_refused {c : Corruption} (accepted : ∃ a, Address.readSegwit c.original = .ok a)
    (sameVariant : c.original.StatesVersionZero ↔ c.corrupted.StatesVersionZero) :
    ∃ failure, Address.readSegwit c.corrupted = .error failure := by
  obtain ⟨a, accepted⟩ := accepted
  obtain ⟨p, -, program⟩ := Address.readSegwit_eq_ok_iff.mp accepted
  cases result : Address.readSegwit c.corrupted with
  | error failure => exact ⟨failure, rfl⟩
  | ok a' =>
      obtain ⟨p', -, program'⟩ := Address.readSegwit_eq_ok_iff.mp result
      rw [statesVersionZero_iff program, statesVersionZero_iff program'] at sameVariant
      have variant : SegwitProgram.variant p.version = SegwitProgram.variant p'.version := by
        simp only [SegwitProgram.variant, sameVariant]
      have refused := not_checks (SegwitProgram.word_of_read? program)
        (SegwitProgram.word_of_read? program') (Word.checks_withChecksum _ _ _)
      rw [variant] at refused
      have valid : p'.word.checks _ = true := Word.checks_withChecksum _ _ _
      rw [refused] at valid
      cases valid

theorem detected (c : Corruption) : Detected c.original c.corrupted :=
  ⟨readInvoice_refused, readSegwit_refused⟩

end Corruption

section Neighbours

variable {hrp before after : Text} {x y : Char}

theorem detected_of_substitution (separated : '1' ∉ before ++ x :: after) (symbol : y ≠ '1')
    (differs : x.toLower ≠ y.toLower) :
    Detected (hrp ++ '1' :: (before ++ x :: after)) (hrp ++ '1' :: (before ++ y :: after)) := by
  have separated' : '1' ∉ before ++ y :: after := by
    simp only [List.mem_append, List.mem_cons, not_or] at separated ⊢
    exact ⟨separated.1, symbol.symm, separated.2.2⟩
  let c : Corruption :=
    { hrp, before, old := [x], new := [y], after, separated, separated', sameLength := rfl
      short := by simp
      differs := by simpa [Text.lower] using differs }
  exact c.detected

theorem detected_of_swap (separated : '1' ∉ before ++ x :: y :: after) (different : x ≠ y) :
    Detected (hrp ++ '1' :: (before ++ x :: y :: after))
      (hrp ++ '1' :: (before ++ y :: x :: after)) := by
  by_cases same : x.toLower = y.toLower
  · -- Two letters that differ in case alone do not stand in one accepted text.
    have unread : ∀ w, Word.read? (hrp ++ '1' :: (before ++ x :: y :: after)) ≠ some w := by
      intro w read
      obtain ⟨single, -, -⟩ := Word.read?_eq_some_iff.mp read
      exact different (Text.eq_of_toLower_eq single (by simp) (by simp) same)
    refine ⟨?_, ?_⟩
    · rintro ⟨i, accepted⟩
      obtain ⟨w, read, -⟩ := Invoice.read_eq_ok_iff.mp accepted
      exact absurd read (unread w)
    · rintro ⟨a, accepted⟩
      obtain ⟨p, -, program⟩ := Address.readSegwit_eq_ok_iff.mp accepted
      exact absurd (SegwitProgram.word_of_read? program) (unread p.word)
  · have separated' : '1' ∉ before ++ y :: x :: after := by
      simp only [List.mem_append, List.mem_cons, not_or] at separated ⊢
      exact ⟨separated.1, separated.2.2.1, separated.2.1, separated.2.2.2⟩
    let c : Corruption :=
      { hrp, before, old := [x, y], new := [y, x], after, separated, separated', sameLength := rfl
        short := by simp
        differs := by
          simp only [Text.lower, List.map_cons, List.map_nil, ne_eq, List.cons.injEq, not_and]
          exact fun first => absurd first same }
    exact c.detected

end Neighbours

/-- A change inside six neighbouring characters is detected, in particular one of a single
character and a swap of two. -/
theorem corruption_detected :
    (∀ c : Corruption, Detected c.original c.corrupted) ∧
      (∀ (hrp before after : Text) (x y : Char), '1' ∉ before ++ x :: after → y ≠ '1' →
        x.toLower ≠ y.toLower →
          Detected (hrp ++ '1' :: (before ++ x :: after)) (hrp ++ '1' :: (before ++ y :: after))) ∧
      ∀ (hrp before after : Text) (x y : Char), '1' ∉ before ++ x :: y :: after → x ≠ y →
        Detected (hrp ++ '1' :: (before ++ x :: y :: after))
          (hrp ++ '1' :: (before ++ y :: x :: after)) := by
  refine ⟨Corruption.detected, ?_, ?_⟩
  · intro hrp before after x y separated symbol differs
    exact detected_of_substitution separated symbol differs
  · intro hrp before after x y separated different
    exact detected_of_swap separated different

/-- An invoice whose payment hash starts with six other symbols. -/
def Corruption.ofHash : Corruption where
  hrp := ['l', 'n', 'b', 'c', '2', '0', 'm']
  before := "pvjluezxqzpqpp5".toList
  old := List.replicate 6 'q'
  new := ['p', 'z', 'r', 'y', '9', 'x']
  after := List.replicate 46 'q' ++ "xqprnqq".toList ++ List.replicate 104 'q' ++ "wcmhxr".toList
  separated := by decide +kernel
  separated' := by decide +kernel
  sameLength := rfl
  short := by decide
  differs := by decide

theorem corruption_detected_of_hash :
    let ending (c : Char) : Text :=
      "BC".toList ++ '1' :: ("QW508D6QEJXTDG4Y5R3ZARVARY0C5XW7KV8F3T".toList ++ [c])
    let opening (x y : Char) : Text :=
      "BC".toList ++ '1' :: (['Q'] ++ x :: y :: "08D6QEJXTDG4Y5R3ZARVARY0C5XW7KV8F3T4".toList)
    (∃ i, Invoice.read Corruption.ofHash.original = .ok i) ∧
      (∃ failure, Invoice.read Corruption.ofHash.corrupted = .error failure) ∧
      (∃ a, Address.readSegwit (ending '4') = .ok a) ∧
      (∃ failure, Address.readSegwit (ending '5') = .error failure) ∧
      (∃ a, Address.readSegwit (opening 'W' '5') = .ok a) ∧
      ∃ failure, Address.readSegwit (opening '5' 'W') = .error failure := by
  intro ending opening
  obtain ⟨window, substitution, swap⟩ := corruption_detected
  have invoice : ∃ i, Invoice.read Corruption.ofHash.original = .ok i := by
    have accepted : (Invoice.read Corruption.ofHash.original).toOption.isSome = true := by
      decide +kernel
    cases read : Invoice.read Corruption.ofHash.original with
    | ok i => exact ⟨i, rfl⟩
    | error failure =>
        rw [read] at accepted
        cases accepted
  have zero (tail : Text) (separated : '1' ∉ tail.lower) :
      Text.StatesVersionZero ("BC".toList ++ '1' :: 'Q' :: tail) :=
    ⟨['b', 'c'], tail.lower, by simp [Text.lower], separated⟩
  have last : ∃ a, Address.readSegwit (ending '4') = .ok a :=
    ⟨⟨.bitcoin, .p2wpkh⟩, by decide +kernel⟩
  have first : ∃ a, Address.readSegwit (opening 'W' '5') = .ok a :=
    ⟨⟨.bitcoin, .p2wpkh⟩, by decide +kernel⟩
  have substituted : Detected (ending '4') (ending '5') :=
    substitution _ _ [] '4' '5' (by decide +kernel) (by decide) (by decide)
  have swapped : Detected (opening 'W' '5') (opening '5' 'W') :=
    swap _ ['Q'] _ 'W' '5' (by decide +kernel) (by decide)
  refine ⟨invoice, (window Corruption.ofHash).invoice invoice, last, ?_, first, ?_⟩
  · apply substituted.segwit last
    exact iff_of_true (zero _ (by decide +kernel)) (zero _ (by decide +kernel))
  · apply swapped.segwit first
    exact iff_of_true (zero _ (by decide +kernel)) (zero _ (by decide +kernel))

end PaymentTarget
