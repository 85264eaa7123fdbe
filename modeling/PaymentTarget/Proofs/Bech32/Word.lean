import PaymentTarget.Bech32.Word
import PaymentTarget.Proofs.Bech32.Residue
import PaymentTarget.Proofs.Text

/-! # Words and their texts

A word has one text in small letters, and reading undoes writing: the separator
is found again because no symbol is written with it. Checked words are those
that `withChecksum` makes.
-/

namespace PaymentTarget

namespace Symbol

theorem toLower_toChar : ∀ s : Symbol, s.toChar.toLower = s.toChar := by
  decide

theorem toChar_ne_separator : ∀ s : Symbol, s.toChar ≠ '1' := by
  decide

theorem toNat_toChar_lt : ∀ s : Symbol, s.toChar.toNat < 128 := by
  decide

theorem toChar_inj {a b : Symbol} : a.toChar = b.toChar ↔ a = b := by
  constructor
  · intro same
    have read := ofChar?_toChar b
    rw [← same, ofChar?_toChar] at read
    exact Option.some.inj read
  · intro same
    rw [same]

theorem ofChar?_toLower (c : Char) : ofChar? c.toLower = ofChar? c := by
  simp only [ofChar?, Char.toLower_toLower_eq_toLower]

theorem ofChar?_eq_some_iff {c : Char} {s : Symbol} : ofChar? c = some s ↔ c.toLower = s.toChar := by
  constructor
  · intro read
    obtain ⟨i, found, rfl⟩ := Option.map_eq_some_iff.mp read
    obtain ⟨inside, same, -⟩ := List.idxOf?_eq_some_iff.mp found
    have index : (BitVec.ofNat 5 i).toNat = i := Nat.mod_eq_of_lt inside
    simp only [toChar, List.get_eq_getElem, index, same]
  · intro same
    rw [← ofChar?_toLower, same, ofChar?_toChar]

theorem mapM_ofChar?_eq_some_iff {t : Text} {symbols : List Symbol} :
    t.mapM ofChar? = some symbols ↔ t.lower = symbols.map toChar := by
  simp only [mapM_eq_some_iff, ofChar?_eq_some_iff, Text.lower]
  rw [← List.forall₂_eq_eq_eq, List.forall₂_map_left_iff, List.forall₂_map_right_iff]

theorem separator_not_mem (symbols : List Symbol) : '1' ∉ symbols.map toChar := by
  intro member
  obtain ⟨s, -, same⟩ := List.mem_map.mp member
  exact toChar_ne_separator s same

theorem lower_map_toChar (symbols : List Symbol) :
    Text.lower (symbols.map toChar) = symbols.map toChar := by
  simp only [Text.lower, List.map_map, Function.comp_def, toLower_toChar]

theorem size_of_lower {t : Text} {symbols : List Symbol} (spelled : t.lower = symbols.map toChar) :
    t.size = symbols.length := by
  have ascii : ∀ c ∈ symbols.map toChar, c.toNat < 128 := by
    intro c member
    obtain ⟨s, -, rfl⟩ := List.mem_map.mp member
    exact toNat_toChar_lt s
  rw [← Text.size_lower, spelled, Text.size_eq_length ascii, List.length_map]

theorem map_toChar_injective : Function.Injective (List.map toChar) :=
  List.map_injective_iff.mpr fun _ _ => toChar_inj.mp

end Symbol

namespace Word

/-- A word is found again in its text. -/
theorem write_injective : Function.Injective write := by
  intro w v same
  obtain ⟨hrp, symbols⟩ := Text.append_separator_inj (Symbol.separator_not_mem w.symbols)
    (Symbol.separator_not_mem v.symbols) same
  cases w
  cases v
  rw [Word.mk.injEq]
  exact ⟨hrp, Symbol.map_toChar_injective symbols⟩

theorem read?_eq_some_iff {t : Text} {w : Word} :
    read? t = some w ↔
      t.isMixedCase = false ∧ Hrp.fault? w.hrp = none ∧ t.lower = w.write := by
  constructor
  · intro read
    unfold read? at read
    split at read
    · cases read
    next single =>
      split at read
      · cases read
      next hrp tail cut =>
        split at read
        next sound =>
          obtain ⟨symbols, spelled, rfl⟩ := Option.map_eq_some_iff.mp read
          have whole := Text.eq_of_splitLast? cut
          have small : Text.lower tail = tail := by
            conv_rhs => rw [← List.map_id tail]
            apply List.map_congr_left
            intro c member
            exact Text.toLower_of_mem_lower (t := t) (by rw [whole]; simp [member])
          rw [Symbol.mapM_ofChar?_eq_some_iff, small] at spelled
          exact ⟨by simpa using single, sound, by rw [whole, spelled, write]⟩
        · cases read
  · rintro ⟨single, sound, written⟩
    have cut : t.lower.splitLast? '1' = some (w.hrp, w.symbols.map Symbol.toChar) := by
      rw [written, write, Text.splitLast?_append _ (Symbol.separator_not_mem _)]
    have spelled : (w.symbols.map Symbol.toChar).mapM Symbol.ofChar? = some w.symbols :=
      Symbol.mapM_ofChar?_eq_some_iff.mpr (Symbol.lower_map_toChar _)
    simp only [read?, single, Bool.false_eq_true, if_false, cut, sound, if_true, spelled,
      Option.map_some]

/-- A text is in small letters if its human-readable part is. -/
theorem lower_write {w : Word} (small : Text.lower w.hrp = w.hrp) : Text.lower w.write = w.write := by
  have separator : Text.lower ('1' :: w.symbols.map Symbol.toChar) =
      '1' :: Text.lower (w.symbols.map Symbol.toChar) := rfl
  rw [write, Text.lower_append, small, separator, Symbol.lower_map_toChar]

theorem size_write (w : Word) : w.write.size = w.hrp.size + 1 + w.symbols.length := by
  have symbols := Symbol.size_of_lower (Symbol.lower_map_toChar w.symbols)
  rw [write, Text.size_append, Text.size_cons, symbols]
  exact (Nat.add_assoc _ _ _).symm

theorem length_checksum (v : ChecksumVariant) (symbols : List Symbol) :
    (v.checksum symbols).length = checksumLength :=
  rfl

theorem size_write_withChecksum (v : ChecksumVariant) (hrp : Text) (data : List Symbol) :
    (withChecksum v hrp data).write.size = hrp.size + 1 + (data.length + checksumLength) := by
  rw [size_write, withChecksum, List.length_append, length_checksum]

theorem data_withChecksum (v : ChecksumVariant) (hrp : Text) (data : List Symbol) :
    (withChecksum v hrp data).data = data := by
  simp only [Word.data, withChecksum, List.length_append, length_checksum, Nat.add_sub_cancel,
    List.take_left]

theorem le_length_of_checks {v : ChecksumVariant} {w : Word} (valid : w.checks v = true) :
    checksumLength ≤ w.symbols.length := by
  rw [checks, Bool.and_eq_true, decide_eq_true_iff] at valid
  exact valid.1

theorem checks_iff {v : ChecksumVariant} {w : Word} :
    w.checks v = true ↔ w = withChecksum v w.hrp w.data := by
  have split : w.symbols = w.data ++ w.symbols.drop (w.symbols.length - checksumLength) :=
    (List.take_append_drop _ _).symm
  rw [checks, Bool.and_eq_true, decide_eq_true_iff, beq_iff_eq]
  constructor
  · rintro ⟨long, valid⟩
    have six : (w.symbols.drop (w.symbols.length - checksumLength)).length = checksumLength := by
      rw [List.length_drop]
      omega
    rw [split, ← List.append_assoc, v.residue_append_iff _ six] at valid
    rw [valid] at split
    exact congrArg (Word.mk w.hrp) split
  · intro whole
    rw [whole]
    refine ⟨?_, ?_⟩
    · simp only [withChecksum, List.length_append, length_checksum]
      omega
    · rw [withChecksum, ← List.append_assoc, v.residue_append_iff _ (length_checksum v _)]

theorem checks_withChecksum (v : ChecksumVariant) (hrp : Text) (data : List Symbol) :
    (withChecksum v hrp data).checks v = true := by
  rw [checks_iff, data_withChecksum]
  rfl

end Word

end PaymentTarget
