import PaymentTarget.Node.Key
import PaymentTarget.Proofs.Text.Hex

/-! # Node keys and their texts

A key is read from the hexadecimal text of its bytes, in whatever letter case
each digit is written, and from no other text. What the reader checks on the
way, the size and the first byte, holds of every key.
-/

namespace PaymentTarget.NodeKey

theorem length_bytes (k : NodeKey) : k.bytes.length = nodeKeyLength := by
  have point := k.isPoint
  simp only [isCompressedPoint, Bool.and_eq_true, beq_iff_eq] at point
  exact point.1.1

theorem lead_bytes (k : NodeKey) : k.bytes.headD 0 = 2 ∨ k.bytes.headD 0 = 3 := by
  have point := k.isPoint
  simp only [isCompressedPoint, Bool.and_eq_true, Bool.or_eq_true, beq_iff_eq] at point
  exact point.1.2

theorem ofBytes_eq_ok_iff {bytes : List UInt8} {k : NodeKey} :
    ofBytes bytes = .ok k ↔ k.bytes = bytes := by
  constructor
  · intro made
    unfold ofBytes at made
    split at made
    · cases made
    · split at made
      · rw [← Except.ok.inj made]
      · cases made
  · rintro rfl
    have lead := k.lead_bytes
    rw [ofBytes, if_neg (by tauto), dif_pos k.isPoint]

theorem size_toHex (k : NodeKey) : k.toHex.size = textSize := by
  rw [toHex, Hex.size_encode, k.length_bytes, textSize]

theorem read_eq_ok_iff {t : Text} {k : NodeKey} : NodeKey.read t = .ok k ↔ t.lower = k.toHex := by
  constructor
  · intro read
    unfold NodeKey.read at read
    split at read
    · cases read
    · split at read
      · cases read
      next bytes decoded =>
        obtain rfl := ofBytes_eq_ok_iff.mp read
        exact Hex.decode_eq_ok_iff.mp decoded
  · intro spelled
    have sized : t.size = textSize := by
      rw [← Text.size_lower, spelled, k.size_toHex]
    have decoded : Hex.decode t = .ok k.bytes := Hex.decode_eq_ok_iff.mpr spelled
    rw [NodeKey.read, if_neg (not_not.mpr sized), decoded]
    exact ofBytes_eq_ok_iff.mpr rfl

theorem read_toHex (k : NodeKey) : NodeKey.read k.toHex = .ok k :=
  read_eq_ok_iff.mpr (Hex.lower_encode k.bytes)

theorem at_not_mem_of_read {t : Text} {k : NodeKey} (read : NodeKey.read t = .ok k) : '@' ∉ t := by
  intro member
  have inside : '@' ∈ k.toHex := by
    rw [← read_eq_ok_iff.mp read]
    exact List.mem_map.mpr ⟨'@', member, by decide⟩
  exact absurd (Hex.isAlphanum_of_mem_encode inside) (by decide)

theorem lower_of_read {t : Text} {k : NodeKey} (read : NodeKey.read t = .ok k) :
    ∃ rest, t.lower = '0' :: rest := by
  have spelled := read_eq_ok_iff.mp read
  have lead := k.lead_bytes
  rw [toHex] at spelled
  cases bytes : k.bytes with
  | nil => simp [bytes] at lead
  | cons b rest =>
      rw [bytes, List.headD_cons] at lead
      rw [bytes, Hex.encode, List.flatMap_cons] at spelled
      rcases lead with rfl | rfl <;> exact ⟨_, spelled⟩

end PaymentTarget.NodeKey
