import PaymentTarget.Text.Hex

/-! # Percent-encoding

Bytes other than ASCII letters, digits, `-`, `.`, `_` and `~` are written as a
percent sign and two hexadecimal digits, in capitals. Reading undoes this; a
percent sign without two digits behind it stands for itself.
-/

namespace PaymentTarget.Percent

/-- The byte of the percent sign. -/
def sign : UInt8 := 37

/-- Whether a character is written as it is. -/
def isKept (c : Char) : Bool :=
  c.isAlphanum || c == '-' || c == '.' || c == '_' || c == '~'

/-- A byte in encoded form. -/
def encodeByte (byte : UInt8) : Text :=
  let c := Char.ofNat byte.toNat
  if isKept c then [c] else '%' :: Text.upper (Hex.digits byte)

/-- A text in encoded form. -/
def encode (t : Text) : Text :=
  t.utf8.flatMap encodeByte

/-- The byte that two hexadecimal digits stand for. -/
def escaped? (high low : UInt8) : Option UInt8 :=
  match Hex.digitValue? high, Hex.digitValue? low with
  | some h, some l => some (UInt8.ofNat (16 * h + l))
  | _, _ => none

/-- The bytes with every escape replaced by the byte it stands for. -/
def decodeBytes : List UInt8 → List UInt8
  | [] => []
  | [b] => [b]
  | [b, c] => [b, c]
  | b :: high :: low :: rest =>
      if b = sign then
        match escaped? high low with
        | some byte => byte :: decodeBytes rest
        | none => b :: decodeBytes (high :: low :: rest)
      else b :: decodeBytes (high :: low :: rest)

/-- The text whose encoded form is `t`, if the bytes are UTF-8. -/
def decode? (t : Text) : Option Text :=
  Text.ofUtf8? (decodeBytes t.utf8)

/-- A byte other than the sign stands for itself. -/
theorem decodeBytes_cons {b : UInt8} (h : b ≠ sign) (rest : List UInt8) :
    decodeBytes (b :: rest) = b :: decodeBytes rest := by
  match rest with
  | [] => rfl
  | [_] => rfl
  | _ :: _ :: _ => rw [decodeBytes, if_neg h]

/-- A byte is encoded as itself, if it is not the sign, or as an escape. -/
theorem utf8_encodeByte (b : UInt8) :
    (Text.utf8 (encodeByte b) = [b] ∧ b ≠ sign) ∨
      ∃ high low, Text.utf8 (encodeByte b) = [sign, high, low] ∧ escaped? high low = some b := by
  have hall : ∀ v : BitVec 8, let bytes := Text.utf8 (encodeByte ⟨v⟩)
      (bytes = [⟨v⟩] ∧ (⟨v⟩ : UInt8) ≠ sign) ∨
        (bytes = [sign, bytes.getD 1 0, bytes.getD 2 0]
          ∧ escaped? (bytes.getD 1 0) (bytes.getD 2 0) = some ⟨v⟩) := by decide +kernel
  rcases hall b.toBitVec with hkept | hescaped
  · exact Or.inl hkept
  · exact Or.inr ⟨_, _, hescaped⟩

/-- The encoded form of a byte is read as that byte, whatever follows. -/
theorem decodeBytes_encodeByte (b : UInt8) (rest : List UInt8) :
    decodeBytes (Text.utf8 (encodeByte b) ++ rest) = b :: decodeBytes rest := by
  rcases utf8_encodeByte b with ⟨hone, hne⟩ | ⟨high, low, hthree, hbyte⟩
  · rw [hone]
    exact decodeBytes_cons hne rest
  · simp only [hthree, List.cons_append, List.nil_append, decodeBytes, if_true, hbyte]

/-- The encoded form of a text is read as that text. -/
theorem decode?_encode (t : Text) : decode? (encode t) = some t := by
  have hbytes (bytes : List UInt8) :
      decodeBytes (Text.utf8 (bytes.flatMap encodeByte)) = bytes := by
    induction bytes with
    | nil => rfl
    | cons b rest ih =>
        have happend : Text.utf8 ((b :: rest).flatMap encodeByte)
            = Text.utf8 (encodeByte b) ++ Text.utf8 (rest.flatMap encodeByte) := by
          simp only [Text.utf8, List.flatMap_cons, List.flatMap_append]
        rw [happend, decodeBytes_encodeByte, ih]
  rw [decode?, encode, hbytes, Text.ofUtf8?_utf8]

end PaymentTarget.Percent
