import PaymentTarget.Text.Utf8

/-! # Hexadecimal

Two digits for a byte, the high one first. Writing uses small letters, reading
takes either case. Reading works on the bytes of a text, so that a fault names
a byte and its position, also inside a character of several bytes.
-/

namespace PaymentTarget.Hex

/-- Why a text is not hexadecimal. -/
inductive Fault where
  /-- The byte at `position` is not a digit. -/
  | digit (byte : UInt8) (position : Nat)
  /-- The last digit has no partner. -/
  | oddLength
  deriving Repr, DecidableEq

/-- The value of an ASCII digit, in either case. -/
def digitValue? (byte : UInt8) : Option Nat :=
  let n := byte.toNat
  if 48 ≤ n ∧ n ≤ 57 then some (n - 48)
  else if 65 ≤ n ∧ n ≤ 70 then some (n - 55)
  else if 97 ≤ n ∧ n ≤ 102 then some (n - 87)
  else none

/-- The value of the digit at `position`. -/
def digitAt (position : Nat) (byte : UInt8) : Except Fault Nat :=
  match digitValue? byte with
  | some value => .ok value
  | none => .error (.digit byte position)

/-- Reads pairs of digits, the first of which stands at `position`. -/
def readPairs (position : Nat) : List UInt8 → Except Fault (List UInt8)
  | [] => .ok []
  | [_] => .error .oddLength
  | high :: low :: rest => do
      let h ← digitAt position high
      let l ← digitAt (position + 1) low
      let bytes ← readPairs (position + 2) rest
      .ok (UInt8.ofNat (16 * h + l) :: bytes)

/-- The bytes a text of hexadecimal digits stands for. -/
def decode (t : Text) : Except Fault (List UInt8) :=
  if t.size % 2 = 1 then .error .oddLength else readPairs 0 t.utf8

/-- The two digits of a byte. -/
def digits (byte : UInt8) : Text :=
  [Nat.digitChar (byte.toNat / 16), Nat.digitChar (byte.toNat % 16)]

/-- Every byte as two digits. -/
def encode (bytes : List UInt8) : Text :=
  bytes.flatMap digits

/-- Two digits are written for each byte. -/
theorem length_encode (bytes : List UInt8) : (encode bytes).length = 2 * bytes.length := by
  induction bytes with
  | nil => rfl
  | cons b rest ih =>
      simp only [encode, List.flatMap_cons, List.length_append, List.length_cons] at ih ⊢
      simp only [digits, List.length_cons, List.length_nil, ih]
      omega

/-- A digit is one byte, and that byte has its value. -/
theorem digitAt_digitChar (position n : Nat) (h : n < 16) :
    ∃ byte, String.utf8EncodeChar (Nat.digitChar n) = [byte] ∧ digitAt position byte = .ok n := by
  have hall : ∀ m : Fin 16,
      String.utf8EncodeChar (Nat.digitChar m) = [(Nat.digitChar m).val.toUInt8]
        ∧ digitValue? (Nat.digitChar m).val.toUInt8 = some m.val := by decide
  obtain ⟨hone, hvalue⟩ := hall ⟨n, h⟩
  exact ⟨_, hone, by simp only [digitAt, hvalue]⟩

/-- The pairs of digits that were written are read back. -/
theorem readPairs_encode (position : Nat) (bytes : List UInt8) :
    readPairs position (Text.utf8 (encode bytes)) = .ok bytes := by
  induction bytes generalizing position with
  | nil => rfl
  | cons b rest ih =>
      have hb : b.toNat < 256 := b.toNat_lt
      obtain ⟨high, hhigh, hh⟩ := digitAt_digitChar position (b.toNat / 16) (by omega)
      obtain ⟨low, hlow, hl⟩ := digitAt_digitChar (position + 1) (b.toNat % 16) (by omega)
      have hutf8 : Text.utf8 (encode (b :: rest)) = high :: low :: Text.utf8 (encode rest) := by
        simp only [Text.utf8, encode, digits, List.flatMap_cons, hhigh, hlow,
          List.cons_append, List.nil_append]
      have hbyte : UInt8.ofNat (16 * (b.toNat / 16) + b.toNat % 16) = b := by
        rw [Nat.div_add_mod]
        exact UInt8.ofNat_toNat
      rw [hutf8, readPairs, hh, hl]
      show (readPairs (position + 2) _ >>= fun bytes => Except.ok (_ :: bytes)) = _
      rw [ih, hbyte]
      rfl

end PaymentTarget.Hex
