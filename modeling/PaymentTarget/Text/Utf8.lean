import PaymentTarget.Text.Basic

/-! # The UTF-8 form of a text

Every text has one byte form, and reading it back gives the text. A byte
sequence that is the form of no text is refused as a whole.
-/

namespace PaymentTarget.Text

/-- The bytes of a text. -/
def utf8 (t : Text) : List UInt8 :=
  t.flatMap String.utf8EncodeChar

/-- The text whose byte form is `bytes`. -/
def ofUtf8? (bytes : List UInt8) : Option Text :=
  bytes.toByteArray.utf8Decode?.map Array.toList

/-- Reading gives back the text that was written. -/
theorem ofUtf8?_utf8 (t : Text) : ofUtf8? (utf8 t) = some t := by
  have h : (utf8 t).toByteArray = t.utf8Encode := rfl
  rw [ofUtf8?, h, List.utf8Decode?_utf8Encode]
  rfl

/-- Bytes are read as the text whose byte form they are, and as no other. -/
theorem ofUtf8?_eq_some_iff {bytes : List UInt8} {t : Text} :
    ofUtf8? bytes = some t ↔ bytes = t.utf8 := by
  constructor
  · intro decoded
    obtain ⟨chars, found, rfl⟩ := Option.map_eq_some_iff.mp decoded
    have present : bytes.toByteArray.utf8Decode?.isSome = true := by rw [found]; rfl
    have encoded := ByteArray.utf8Encode_get_utf8Decode? (h := present)
    simp only [found, Option.get_some] at encoded
    have same : (utf8 chars.toList).toByteArray = bytes.toByteArray := encoded
    exact (List.toByteArray_inj.mp same).symm
  · rintro rfl
    exact ofUtf8?_utf8 t

/-- The size of a text is the number of its bytes. -/
theorem length_utf8 (t : Text) : (utf8 t).length = size t := by
  induction t with
  | nil => rfl
  | cons c rest ih =>
      rw [utf8, List.flatMap_cons, List.length_append, String.length_utf8EncodeChar]
      exact congrArg (c.utf8Size + ·) ih

end PaymentTarget.Text
