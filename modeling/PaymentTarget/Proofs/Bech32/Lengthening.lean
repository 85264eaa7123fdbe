import PaymentTarget.Proofs.Address.Segwit
import PaymentTarget.Proofs.Invoice.Layout

/-! # Zeros in front of the last symbol

The symbol zero is the letter `q`. A word of the first variant that ends in `p`
keeps a valid checksum when zeros are put in front of that `p` or taken away
there; a word of the second variant never does. So the checksum cannot tell
such texts apart, and what refuses one of them is the length of what they
carry. The fields of an invoice would have to take up one or two symbols more,
which is less than a field, and a segwit program of version zero has one of two
lengths, which are further apart.
-/

namespace PaymentTarget

theorem Residue.step_zero {r : Residue} {s : Symbol} {v : ChecksumVariant}
    (valid : r.step s = v.residue) : r.step 0#5 = v.residue ^^^ s.setWidth 30 := by
  have linear := step_xor r 0#30 0#5 s
  have alone : step 0#30 s = s.setWidth 30 := by
    have quiet : feedback 0#5 = 0#30 := by decide
    have top : (0#30).extractLsb' 25 5 = 0#5 := by decide
    simp [step, top, quiet]
  rw [BitVec.xor_zero, BitVec.zero_xor, valid, alone] at linear
  rw [linear, BitVec.xor_assoc, BitVec.xor_self, BitVec.xor_zero]

/-- Where the last symbol completes the residue, the residue before it is known, and with it all
    that zeros in between can make of it. -/
theorem ChecksumVariant.last_symbol : ∀ (v : ChecksumVariant) (s : Symbol),
    ((v.residue ^^^ s.setWidth 30).step s = v.residue ↔ v = .bech32 ∧ s = 1#5) ∧
      (((v.residue ^^^ s.setWidth 30).step 0#5).step s = v.residue ↔ v = .bech32 ∧ s = 1#5) := by
  intro v
  cases v <;> decide +kernel

namespace Word

/-- The second word has one or two zeros more in front of the last symbol. -/
inductive Lengthened : Word → Word → Prop
  | zeros (hrp : Text) (before : List Symbol) (last : Symbol) {count : Nat} :
      count = 1 ∨ count = 2 →
        Lengthened ⟨hrp, before ++ [last]⟩ ⟨hrp, before ++ (List.replicate count 0#5 ++ [last])⟩

namespace Lengthened

variable {w w' : Word}

theorem length (lengthened : Lengthened w w') :
    w'.symbols.length = w.symbols.length + 1 ∨ w'.symbols.length = w.symbols.length + 2 := by
  cases lengthened with
  | zeros hrp before last few =>
      simp only [List.length_append, List.length_replicate, List.length_singleton]
      omega

theorem head? (lengthened : Lengthened w w') (long : 2 ≤ w.symbols.length) :
    w'.symbols.head? = w.symbols.head? := by
  cases lengthened with
  | zeros hrp before last few => cases before <;> simp at long ⊢

/-- The symbols in front of the checksum stay, and one or two of the checksum join them. -/
theorem data (lengthened : Lengthened w w') (long : checksumLength ≤ w.symbols.length) :
    ∃ more : List Symbol, w'.data = w.data ++ more ∧ more ≠ [] ∧ more.length < 3 := by
  have six : checksumLength = 6 := rfl
  cases lengthened with
  | @zeros hrp before last count few =>
      rw [List.length_append, List.length_singleton] at long
      have joined : ((before.drop (before.length - 5)).take count).length = count := by
        rw [List.length_take, List.length_drop]
        omega
      refine ⟨(before.drop (before.length - 5)).take count, ?_, ?_, ?_⟩
      · simp only [Word.data, List.length_append, List.length_replicate, List.length_singleton]
        rw [List.take_append_of_le_length (by omega), List.take_append_of_le_length (by omega),
          show before.length + 1 - checksumLength = before.length - 5 by omega, ← List.take_add]
        congr 1
        omega
      · apply List.ne_nil_of_length_pos
        omega
      · omega

/-- The weakness of the checksum: it misses such zeros in words of one variant that end in `p`. -/
theorem checks_iff (lengthened : Lengthened w w') {v : ChecksumVariant}
    (valid : w.checks v = true) :
    w'.checks v = true ↔ v = .bech32 ∧ w.symbols.getLast? = some 1#5 := by
  simp only [Word.checks, Bool.and_eq_true, beq_iff_eq, decide_eq_true_eq] at valid ⊢
  obtain ⟨long, valid⟩ := valid
  have longer := lengthened.length
  rw [and_iff_right (by omega)]
  cases lengthened with
  | zeros hrp before last few =>
      simp only [Residue.ofSymbols, ← List.append_assoc, Residue.absorb_concat] at valid ⊢
      have known := Residue.step_zero valid
      obtain ⟨one, two⟩ := v.last_symbol last
      rw [List.getLast?_concat, Option.some.injEq]
      rcases few with rfl | rfl
      · rw [List.replicate_one, Residue.absorb_concat, known]
        exact one
      · rw [List.replicate_succ', List.replicate_one, ← List.append_assoc, Residue.absorb_concat,
          Residue.absorb_concat, known]
        exact two

end Lengthened

section Texts

variable {body zeros : Text} {last : Char} {w w' : Word}

theorem lengthened_of_read? (few : zeros.lower = ['q'] ∨ zeros.lower = ['q', 'q'])
    (read : Word.read? (body ++ [last]) = some w) (long : checksumLength ≤ w.symbols.length)
    (read' : Word.read? (body ++ (zeros ++ [last])) = some w') : Lengthened w w' := by
  obtain ⟨-, -, written⟩ := Word.read?_eq_some_iff.mp read
  obtain ⟨-, -, written'⟩ := Word.read?_eq_some_iff.mp read'
  have zero : Symbol.toChar 0#5 = 'q' := by decide
  obtain ⟨count, few, zeros⟩ : ∃ count, (count = 1 ∨ count = 2) ∧
      zeros.lower = (List.replicate count 0#5).map Symbol.toChar := by
    rcases few with one | two
    · exact ⟨1, .inl rfl, by rw [one, List.map_replicate, zero]; rfl⟩
    · exact ⟨2, .inr rfl, by rw [two, List.map_replicate, zero]; rfl⟩
  cases w with
  | mk hrp symbols =>
      cases symbols using List.reverseRecOn with
      | nil => cases long
      | append_singleton before s _ =>
          rw [Text.lower_append, Word.write, List.map_append, ← List.cons_append,
            ← List.append_assoc] at written
          obtain ⟨opening, final⟩ := List.append_inj' written rfl
          rw [Text.lower_append, Text.lower_append, opening, zeros, final, List.append_assoc,
            List.cons_append, ← List.map_append, ← List.map_append] at written'
          let longer : Word := ⟨hrp, before ++ (List.replicate count 0#5 ++ [s])⟩
          obtain rfl : longer = w' := Word.write_injective written'
          exact .zeros hrp before s few

end Texts

end Word

theorem Invoice.not_carried_of_lengthened {w w' : Word} (lengthened : Word.Lengthened w w')
    (long : checksumLength ≤ w.symbols.length) (short : w.hrp.size ≤ Hrp.maxSize) {i i' : Invoice}
    (carried : ofWord w = .ok i) : ofWord w' ≠ .ok i' := by
  intro carried'
  have same : w'.hrp = w.hrp := by cases lengthened; rfl
  obtain ⟨l, -, data, measured⟩ := Layout.exists_of_ofWord carried short
  obtain ⟨l', -, data', measured'⟩ := Layout.exists_of_ofWord carried' (same ▸ short)
  obtain ⟨more, longer, nonempty, few⟩ := lengthened.data long
  rw [← data, ← data'] at longer
  exact nonempty (measured.eq_nil_of_data measured' longer few)

theorem SegwitProgram.not_lengthened {p p' : SegwitProgram}
    (allowed : Allowed p.version p.program.length)
    (allowed' : Allowed p'.version p'.program.length) : ¬ Word.Lengthened p.word p'.word := by
  intro lengthened
  have symbols := p.length_symbols_word
  have symbols' := p'.length_symbols_word
  have version : p'.version = p.version := by
    have first := lengthened.head? (by simp only [symbols, checksumLength]; omega)
    exact Option.some.inj first
  by_cases zero : p.version = 0#5
  · -- Both programs have 20 or 32 bytes, in 32 or 52 symbols.
    have fits := allowed.fits
    have fits' := allowed'.fits
    have longer := lengthened.length
    simp only [isLength, version, zero, bne_self_eq_false, Bool.false_or, Bool.and_eq_true,
      Bool.or_eq_true, beq_iff_eq, decide_eq_true_eq] at fits fits'
    omega
  · have valid : p.word.checks (variant p.version) = true := Word.checks_withChecksum _ _ _
    have valid' : p'.word.checks (variant p'.version) = true := Word.checks_withChecksum _ _ _
    rw [version, lengthened.checks_iff valid] at valid'
    simp [variant, zero] at valid'

section Texts

variable {body zeros : Text} {last : Char}

theorem not_readInvoice_both (few : zeros.lower = ['q'] ∨ zeros.lower = ['q', 'q'])
    {i i' : Invoice} (read : Invoice.read (body ++ [last]) = .ok i) :
    Invoice.read (body ++ (zeros ++ [last])) ≠ .ok i' := by
  intro read'
  obtain ⟨w, word, -, valid, carried⟩ := Invoice.read_eq_ok_iff.mp read
  obtain ⟨w', word', -, -, carried'⟩ := Invoice.read_eq_ok_iff.mp read'
  obtain ⟨-, sound, -⟩ := Word.read?_eq_some_iff.mp word
  obtain ⟨-, short, -⟩ := Hrp.fault?_eq_none_iff.mp sound
  have long := Word.le_length_of_checks valid
  exact Invoice.not_carried_of_lengthened (Word.lengthened_of_read? few word long word') long short
    carried carried'

theorem not_readSegwit_both (few : zeros.lower = ['q'] ∨ zeros.lower = ['q', 'q'])
    {a a' : Address} (read : Address.readSegwit (body ++ [last]) = .ok a) :
    Address.readSegwit (body ++ (zeros ++ [last])) ≠ .ok a' := by
  intro read'
  obtain ⟨p, isOf, program⟩ := Address.readSegwit_eq_ok_iff.mp read
  obtain ⟨p', isOf', program'⟩ := Address.readSegwit_eq_ok_iff.mp read'
  have long : checksumLength ≤ p.word.symbols.length := by
    rw [p.length_symbols_word]
    omega
  exact SegwitProgram.not_lengthened isOf.kind.allowed isOf'.kind.allowed
    (Word.lengthened_of_read? few (SegwitProgram.word_of_read? program) long
      (SegwitProgram.word_of_read? program'))

end Texts

/-- What is accepted in one form is refused in the other. -/
structure Excludes (t u : Text) : Prop where
  invoice : (∃ i, Invoice.read t = .ok i) → ∃ failure, Invoice.read u = .error failure
  segwit : (∃ a, Address.readSegwit t = .ok a) → ∃ failure, Address.readSegwit u = .error failure

/-- One or two letters `q`, in whatever letter case, that are put in front of the last character
    of an accepted text make it a text that is refused, and so they do when they are taken away
    there. -/
theorem lengthening_refused (body zeros : Text) (last : Char)
    (few : zeros.lower = ['q'] ∨ zeros.lower = ['q', 'q']) :
    Excludes (body ++ [last]) (body ++ (zeros ++ [last])) ∧
      Excludes (body ++ (zeros ++ [last])) (body ++ [last]) := by
  refine ⟨⟨?_, ?_⟩, ?_, ?_⟩
  · intro ⟨i, read⟩
    exact exists_error_of_not_ok fun i' => not_readInvoice_both few read
  · intro ⟨a, read⟩
    exact exists_error_of_not_ok fun a' => not_readSegwit_both few read
  · intro ⟨i, read⟩
    exact exists_error_of_not_ok fun i' read' => not_readInvoice_both few read' read
  · intro ⟨a, read⟩
    exact exists_error_of_not_ok fun a' read' => not_readSegwit_both few read' read

/-- An invoice that loses a `q` and keeps a valid checksum, and an address that gets two. -/
theorem lengthening_refused_of_weakness :
    let invoice : Text := "lnbc20m1pvjlu78pp5".toList ++ List.replicate 156 'q' ++ "puft".toList
    let address : Text := "BC1QQQQQQQQQQQQQQQQQQQQQQQQQQQQQQQAZF9Q0Q".toList
    (∃ i, Invoice.read (invoice ++ (['q'] ++ ['p'])) = .ok i) ∧
      (Word.read? (invoice ++ ['p'])).any (Word.checks .bech32) = true ∧
      (∃ failure, Invoice.read (invoice ++ ['p']) = .error failure) ∧
      (∃ a, Address.readSegwit (address ++ ['P']) = .ok a) ∧
      (Word.read? (address ++ (['Q', 'Q'] ++ ['P']))).any (Word.checks .bech32) = true ∧
      ∃ failure, Address.readSegwit (address ++ (['Q', 'Q'] ++ ['P'])) = .error failure := by
  intro invoice address
  have accepted : ∃ i, Invoice.read (invoice ++ (['q'] ++ ['p'])) = .ok i :=
    exists_ok_of_toBool (by decide +kernel)
  have paid : ∃ a, Address.readSegwit (address ++ ['P']) = .ok a :=
    exists_ok_of_toBool (by decide +kernel)
  have shortened := (lengthening_refused invoice ['q'] 'p' (.inl rfl)).2
  have lengthened := (lengthening_refused address ['Q', 'Q'] 'P' (.inr (by decide))).1
  exact ⟨accepted, by decide +kernel, shortened.invoice accepted, paid, by decide +kernel,
    lengthened.segwit paid⟩

end PaymentTarget
