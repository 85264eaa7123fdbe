import PaymentTarget.Proofs.Node.Key
import PaymentTarget.Proofs.Secp256k1

/-! # Node keys are points

The keys are the points of the curve in compressed form: a byte for the sign of
the ordinate, and an abscissa below the field prime. A text is read as a key
exactly if it spells such bytes, and when a digit is wrong the place of the first
wrong one is told, whatever the bytes around it would have been.
-/

namespace PaymentTarget

/-- The compressed form of a point, said without computing a root. -/
structure CompressedPoint (bytes : List UInt8) : Prop where
  length : bytes.length = 33
  lead : bytes.head? = some 0x02 ∨ bytes.head? = some 0x03
  field : Radix.value 256 (bytes.tail.map UInt8.toNat) < Secp256k1.prime
  curve : ∃ y, y * y ≡ Radix.value 256 (bytes.tail.map UInt8.toNat) ^ 3 + 7 [MOD Secp256k1.prime]

theorem isCompressedPoint_iff {bytes : List UInt8} :
    isCompressedPoint bytes = true ↔ CompressedPoint bytes := by
  simp only [isCompressedPoint, Bool.and_eq_true, Bool.or_eq_true, beq_iff_eq,
    Secp256k1.isAbscissa_iff, nodeKeyLength]
  cases bytes with
  | nil => exact iff_of_false (by simp) fun point => absurd point.length (by simp)
  | cons b rest =>
      constructor
      · rintro ⟨⟨length, lead⟩, field, curve⟩
        exact ⟨length, by simpa using lead, field, curve⟩
      · intro point
        exact ⟨⟨point.length, by simpa using point.lead⟩, point.field, point.curve⟩

namespace NodeKey

theorem exists_bytes_iff {bytes : List UInt8} :
    (∃ k : NodeKey, k.bytes = bytes) ↔ CompressedPoint bytes := by
  rw [← isCompressedPoint_iff]
  constructor
  · rintro ⟨k, rfl⟩
    exact k.isPoint
  · intro point
    exact ⟨⟨bytes, point⟩, rfl⟩

theorem read_eq_error_of_digit {t : Text} {front back : List UInt8} {byte : UInt8}
    (sized : t.size = 66) (utf8 : t.utf8 = front ++ byte :: back)
    (known : ∀ b ∈ front, Hex.IsDigit b) (foreign : ¬ Hex.IsDigit byte) :
    NodeKey.read t = .error (.hex (.digit byte front.length)) := by
  have whole : t.size = textSize := sized
  have even : (front ++ byte :: back).length % 2 = 0 := by
    rw [← utf8, Text.length_utf8, sized]
  have refused := Hex.readPairs_eq_error 0 known foreign even
  rw [NodeKey.read, if_neg (not_not.mpr whole), Hex.decode, if_neg (by rw [sized]; decide), utf8,
    refused, Nat.zero_add]

/-- The texts of keys are those that spell points, and each key is read back from its own text.
Of other texts of that size the first byte that is no digit is told. -/
theorem read_iff_point (t : Text) :
    ((∃ k, NodeKey.read t = .ok k) ↔ ∃ bytes, Hex.Spells t bytes ∧ CompressedPoint bytes) ∧
      (∀ k, NodeKey.read t = .ok k →
        k.toHex = t.lower ∧ NodeKey.read k.toHex = .ok k ∧ Hex.Spells t k.bytes) ∧
      (t.size = 66 → (∃ byte ∈ t.utf8, ¬ Hex.IsDigit byte) →
        ∃ front byte back, t.utf8 = front ++ byte :: back ∧ (∀ b ∈ front, Hex.IsDigit b) ∧
          ¬ Hex.IsDigit byte ∧ NodeKey.read t = .error (.hex (.digit byte front.length))) := by
  refine ⟨?_, ?_, ?_⟩
  · constructor
    · intro ⟨k, read⟩
      exact ⟨k.bytes, Hex.spells_iff.mpr (read_eq_ok_iff.mp read), exists_bytes_iff.mp ⟨k, rfl⟩⟩
    · intro ⟨bytes, spells, point⟩
      obtain ⟨k, rfl⟩ := exists_bytes_iff.mpr point
      exact ⟨k, read_eq_ok_iff.mpr (Hex.spells_iff.mp spells)⟩
  · intro k read
    have spelled := read_eq_ok_iff.mp read
    exact ⟨spelled.symm, read_toHex k, Hex.spells_iff.mpr spelled⟩
  · intro sized foreign
    obtain ⟨front, byte, back, utf8, known, foreign⟩ := Hex.exists_first_foreign foreign
    exact ⟨front, byte, back, utf8, known, foreign,
      read_eq_error_of_digit sized utf8 known foreign⟩

/-- The key of the generator in capitals, and with a letter of two bytes for two of its digits. -/
theorem read_iff_point_of_capitals :
    let t : Text := "0279BE667EF9DCBBAC55A06295CE870B07029BFCDB2DCE28D959F2815B16F81798".toList
    let u : Text := "0279é667EF9DCBBAC55A06295CE870B07029BFCDB2DCE28D959F2815B16F81798".toList
    (∃ bytes, Hex.Spells t bytes ∧ CompressedPoint bytes) ∧
      (∃ k, NodeKey.read t = .ok k ∧ k.toHex = t.lower) ∧
      u.size = 66 ∧ ∃ front byte back, u.utf8 = front ++ byte :: back ∧ front.length = 4 ∧
        byte = 0xc3 ∧ ¬ Hex.IsDigit byte := by
  intro t u
  have accepted : (NodeKey.read t).toBool = true := by decide +kernel
  obtain ⟨k, read⟩ := exists_ok_of_toBool accepted
  have sized : u.size = 66 := by decide +kernel
  have refused : NodeKey.read u = .error (.hex (.digit 0xc3 4)) := by decide +kernel
  have damaged : ∃ byte ∈ u.utf8, ¬ Hex.IsDigit byte := by decide +kernel
  obtain ⟨front, byte, back, utf8, -, foreign, found⟩ := (read_iff_point u).2.2 sized damaged
  rw [refused, Except.error.injEq, Failure.hex.injEq, Hex.Fault.digit.injEq] at found
  exact ⟨(read_iff_point t).1.mp ⟨k, read⟩, ⟨k, read, ((read_iff_point t).2.1 k read).1⟩, sized,
    front, byte, back, utf8, found.2.symm, found.1.symm, foreign⟩

end NodeKey

end PaymentTarget
