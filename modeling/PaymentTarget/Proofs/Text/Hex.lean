import PaymentTarget.Proofs.Text
import PaymentTarget.Text.Hex

/-! # Hexadecimal texts

A text that is read as bytes is the text written for them, up to letter case.
Reading looks at the bytes of the text; a digit is one byte, so that the bytes
of a hexadecimal text are its characters.
-/

namespace PaymentTarget.Hex

theorem ascii_digit : ∀ n : Fin 128, ∀ value < 16,
    digitValue? (UInt8.ofNat n) = some value → (Char.ofNat n).toLower = Nat.digitChar value := by
  decide

theorem digitValue?_lt {byte : UInt8} {value : Nat} (digit : digitValue? byte = some value) :
    value < 16 ∧ byte.toNat < 128 := by
  unfold digitValue? at digit
  simp only at digit
  split at digit
  · rw [Option.some.injEq] at digit
    omega
  · split at digit
    · rw [Option.some.injEq] at digit
      omega
    · split at digit
      · rw [Option.some.injEq] at digit
        omega
      · cases digit

/-- A digit is found in the first byte of a character only if the character is that digit. -/
theorem toLower_of_digit {c : Char} {byte : UInt8} {more : List UInt8} {value : Nat}
    (bytes : String.utf8EncodeChar c = byte :: more) (digit : digitValue? byte = some value) :
    more = [] ∧ c.toLower = Nat.digitChar value := by
  obtain ⟨below, ascii⟩ := digitValue?_lt digit
  unfold String.utf8EncodeChar at bytes
  simp only at bytes
  split at bytes
  next small =>
    obtain ⟨rfl, rfl⟩ := List.cons.inj bytes
    have inside : c.val.toNat < 128 := by omega
    have same : Char.ofNat c.val.toNat = c := Char.ofNat_toNat c
    have spelled := ascii_digit ⟨c.val.toNat, inside⟩ value below digit
    rw [same] at spelled
    exact ⟨rfl, spelled⟩
  · split at bytes
    · obtain ⟨rfl, -⟩ := List.cons.inj bytes
      rw [UInt8.toNat_ofNat'] at ascii
      omega
    · split at bytes
      · obtain ⟨rfl, -⟩ := List.cons.inj bytes
        rw [UInt8.toNat_ofNat'] at ascii
        omega
      · obtain ⟨rfl, -⟩ := List.cons.inj bytes
        rw [UInt8.toNat_ofNat'] at ascii
        omega

/-- The digit in front of the bytes of a text is its first character. -/
theorem cons_of_utf8_cons {t : Text} {byte : UInt8} {rest : List UInt8} {value : Nat}
    (bytes : t.utf8 = byte :: rest) (digit : digitValue? byte = some value) :
    ∃ (c : Char) (tail : Text), t = c :: tail ∧ c.toLower = Nat.digitChar value ∧ tail.utf8 = rest := by
  cases t with
  | nil => cases bytes
  | cons c tail =>
      rw [Text.utf8, List.flatMap_cons] at bytes
      cases enc : String.utf8EncodeChar c with
      | nil => exact absurd enc String.utf8EncodeChar_ne_nil
      | cons b more =>
          rw [enc, List.cons_append, List.cons.injEq] at bytes
          obtain ⟨rfl, following⟩ := bytes
          obtain ⟨rfl, spelled⟩ := toLower_of_digit enc digit
          exact ⟨c, tail, rfl, spelled, following⟩

theorem digitAt_eq_ok_iff {position value : Nat} {byte : UInt8} :
    digitAt position byte = .ok value ↔ digitValue? byte = some value := by
  unfold digitAt
  cases digitValue? byte <;> simp

theorem digits_ofNat {high low : Nat} (hh : high < 16) (hl : low < 16) :
    digits (UInt8.ofNat (16 * high + low)) = [Nat.digitChar high, Nat.digitChar low] := by
  have number : (UInt8.ofNat (16 * high + low)).toNat = 16 * high + low := by
    rw [UInt8.toNat_ofNat']
    omega
  rw [digits, number, show (16 * high + low) / 16 = high by omega,
    show (16 * high + low) % 16 = low by omega]

theorem readPairs_cons_cons {position : Nat} {high low : UInt8} {rest bytes : List UInt8}
    (read : readPairs position (high :: low :: rest) = .ok bytes) :
    ∃ h l tail, digitValue? high = some h ∧ digitValue? low = some l ∧
      readPairs (position + 2) rest = .ok tail ∧ bytes = UInt8.ofNat (16 * h + l) :: tail := by
  rw [readPairs, bind_eq_ok_iff] at read
  obtain ⟨h, first, read⟩ := read
  rw [bind_eq_ok_iff] at read
  obtain ⟨l, second, read⟩ := read
  rw [bind_eq_ok_iff] at read
  obtain ⟨tail, following, read⟩ := read
  exact ⟨h, l, tail, digitAt_eq_ok_iff.mp first, digitAt_eq_ok_iff.mp second, following,
    (Except.ok.inj read).symm⟩

theorem lower_of_readPairs {position : Nat} {t : Text} {source bytes : List UInt8}
    (utf8 : t.utf8 = source) (read : readPairs position source = .ok bytes) :
    t.lower = encode bytes := by
  induction position, source using readPairs.induct generalizing t bytes with
  | case1 =>
      rw [readPairs, Except.ok.injEq] at read
      subst read
      cases t with
      | nil => rfl
      | cons c rest => simp [Text.utf8, String.utf8EncodeChar_ne_nil] at utf8
  | case2 => cases read
  | case3 position high low rest ih =>
      obtain ⟨h, l, tail, highDigit, lowDigit, following, rfl⟩ := readPairs_cons_cons read
      obtain ⟨c, afterHigh, rfl, first, utf8⟩ := cons_of_utf8_cons utf8 highDigit
      obtain ⟨d, afterLow, rfl, second, utf8⟩ := cons_of_utf8_cons utf8 lowDigit
      have remainder : Text.lower afterLow = encode tail := ih utf8 following
      have written := digits_ofNat (digitValue?_lt highDigit).1 (digitValue?_lt lowDigit).1
      simp only [Text.lower] at remainder
      simp only [Text.lower, List.map_cons, first, second, remainder, encode, List.flatMap_cons,
        written, List.cons_append, List.nil_append]

theorem lower_encode (bytes : List UInt8) : (encode bytes).lower = encode bytes :=
  lower_of_readPairs rfl (readPairs_encode 0 bytes)

theorem lower_of_decode {t : Text} {bytes : List UInt8} (read : decode t = .ok bytes) :
    t.lower = encode bytes := by
  unfold decode at read
  split at read
  · cases read
  · exact lower_of_readPairs rfl read

theorem ascii_letter : ∀ n : Fin 128, ∀ value < 16,
    (Char.ofNat n).toLower = Nat.digitChar value →
      String.utf8EncodeChar (Char.ofNat n) = [UInt8.ofNat n] ∧
        digitValue? (UInt8.ofNat n) = some value := by
  decide

/-- A digit in either letter case is one byte, from which its value is read. -/
theorem digit_of_toLower {c : Char} {value : Nat} (below : value < 16)
    (spelled : c.toLower = Nat.digitChar value) :
    ∃ byte, String.utf8EncodeChar c = [byte] ∧ digitValue? byte = some value := by
  have digit : ∀ v < 16, (Nat.digitChar v).toNat < 128 := by decide
  have ascii : c.toNat < 128 := by
    have small := digit value below
    rw [← spelled] at small
    by_cases capital : c.isUpper = true
    · rw [Text.toNat_toLower capital] at small
      omega
    · rwa [Char.toLower_eq_of_not_isUpper capital] at small
  have same : Char.ofNat c.toNat = c := Char.ofNat_toNat c
  have read := ascii_letter ⟨c.toNat, ascii⟩ value below
  simp only [same] at read
  exact ⟨_, read spelled⟩

/-- A text that is written for bytes holds the sixteen small digits only. -/
theorem exists_digit_of_mem_encode {c : Char} {bytes : List UInt8} (member : c ∈ encode bytes) :
    ∃ n < 16, c = Nat.digitChar n := by
  obtain ⟨b, -, inside⟩ := List.mem_flatMap.mp member
  have bound := b.toNat_lt
  simp only [digits, List.mem_cons, List.not_mem_nil, or_false] at inside
  rcases inside with high | low
  · exact ⟨b.toNat / 16, by omega, high⟩
  · exact ⟨b.toNat % 16, by omega, low⟩

theorem isAlphanum_of_mem_encode {c : Char} {bytes : List UInt8} (member : c ∈ encode bytes) :
    c.isAlphanum = true := by
  have digitChars : ∀ n < 16, (Nat.digitChar n).isAlphanum = true := by decide
  obtain ⟨n, bound, rfl⟩ := exists_digit_of_mem_encode member
  exact digitChars n bound

theorem size_encode (bytes : List UInt8) : (encode bytes).size = 2 * bytes.length := by
  rw [Text.size_eq_length, length_encode]
  intro c member
  exact Text.toNat_lt_of_isAlphanum (isAlphanum_of_mem_encode member)

theorem readPairs_of_lower {position : Nat} {t : Text} {bytes : List UInt8}
    (spelled : t.lower = encode bytes) : readPairs position t.utf8 = .ok bytes := by
  induction bytes generalizing position t with
  | nil =>
      obtain rfl := List.map_eq_nil_iff.mp spelled
      rfl
  | cons b rest ih =>
      have bound := b.toNat_lt
      obtain ⟨c, afterHigh, rfl, first, spelled⟩ := List.map_eq_cons_iff.mp spelled
      obtain ⟨d, afterLow, rfl, second, spelled⟩ := List.map_eq_cons_iff.mp spelled
      obtain ⟨high, hhigh, hh⟩ := digit_of_toLower (by omega) first
      obtain ⟨low, hlow, hl⟩ := digit_of_toLower (by omega) second
      have utf8 : Text.utf8 (c :: d :: afterLow) = high :: low :: Text.utf8 afterLow := by
        simp only [Text.utf8, List.flatMap_cons, hhigh, hlow, List.cons_append, List.nil_append]
      have byte : UInt8.ofNat (16 * (b.toNat / 16) + b.toNat % 16) = b := by
        rw [Nat.div_add_mod]
        exact UInt8.ofNat_toNat
      rw [utf8, readPairs, digitAt_eq_ok_iff.mpr hh, digitAt_eq_ok_iff.mpr hl]
      show (readPairs (position + 2) _ >>= fun bytes => Except.ok (_ :: bytes)) = _
      rw [ih spelled, byte]
      rfl

/-- A text is read as the bytes whose text is its small form. -/
theorem decode_eq_ok_iff {t : Text} {bytes : List UInt8} :
    decode t = .ok bytes ↔ t.lower = encode bytes := by
  constructor
  · exact lower_of_decode
  · intro spelled
    have even : t.size = 2 * bytes.length := by
      rw [← Text.size_lower, spelled, size_encode]
    rw [decode, if_neg (by omega)]
    exact readPairs_of_lower spelled

/-- Two digits for each byte, the high one first, and each in either letter case. -/
inductive Spells : Text → List UInt8 → Prop
  | nil : Spells [] []
  | byte {high low : Char} {b : UInt8} {rest : Text} {bytes : List UInt8} :
      high.toLower = Nat.digitChar (b.toNat / 16) → low.toLower = Nat.digitChar (b.toNat % 16) →
        Spells rest bytes → Spells (high :: low :: rest) (b :: bytes)

theorem spells_iff {t : Text} {bytes : List UInt8} : Spells t bytes ↔ t.lower = encode bytes := by
  constructor
  · intro spells
    induction spells with
    | nil => rfl
    | @byte high low b rest bytes first second _ ih =>
        have written : encode (b :: bytes) = digits b ++ encode bytes := rfl
        rw [written, ← ih, digits, ← first, ← second]
        rfl
  · intro written
    induction bytes generalizing t with
    | nil =>
        obtain rfl := List.map_eq_nil_iff.mp written
        exact .nil
    | cons b bytes ih =>
        obtain ⟨high, behind, rfl, first, written⟩ := List.map_eq_cons_iff.mp written
        obtain ⟨low, rest, rfl, second, written⟩ := List.map_eq_cons_iff.mp written
        exact .byte first second (ih written)

/-- The digits in both letter cases. -/
def alphabet : List Char :=
  ['0', '1', '2', '3', '4', '5', '6', '7', '8', '9', 'a', 'b', 'c', 'd', 'e', 'f',
    'A', 'B', 'C', 'D', 'E', 'F']

/-- The byte is the code of a digit. -/
def IsDigit (byte : UInt8) : Prop :=
  byte.toNat ∈ alphabet.map Char.toNat

instance (byte : UInt8) : Decidable (IsDigit byte) :=
  inferInstanceAs (Decidable (byte.toNat ∈ alphabet.map Char.toNat))

theorem isDigit_iff {byte : UInt8} : IsDigit byte ↔ ∃ value, digitValue? byte = some value := by
  have codes : ∀ n : Fin 128, n.val ∈ alphabet.map Char.toNat ↔
      (digitValue? (UInt8.ofNat n)).isSome = true := by
    decide
  have ascii : ∀ n ∈ alphabet.map Char.toNat, n < 128 := by decide
  have same (below : byte.toNat < 128) := codes ⟨byte.toNat, below⟩
  simp only [UInt8.ofNat_toNat, Option.isSome_iff_exists] at same
  constructor
  · intro code
    exact (same (ascii _ code)).mp code
  · intro ⟨value, digit⟩
    exact (same (digitValue?_lt digit).2).mpr ⟨value, digit⟩

theorem digitAt_eq_error {position : Nat} {byte : UInt8} (foreign : ¬ IsDigit byte) :
    digitAt position byte = .error (.digit byte position) := by
  rw [isDigit_iff, not_exists] at foreign
  rw [digitAt, Option.eq_none_iff_forall_ne_some.mpr foreign]

theorem exists_first_foreign {bytes : List UInt8} (foreign : ∃ byte ∈ bytes, ¬ IsDigit byte) :
    ∃ front byte back, bytes = front ++ byte :: back ∧ (∀ b ∈ front, IsDigit b) ∧
      ¬ IsDigit byte := by
  cases found : bytes.find? fun b => !decide (IsDigit b) with
  | none =>
      obtain ⟨byte, member, foreign⟩ := foreign
      have known := List.find?_eq_none.mp found byte member
      exact absurd (by simpa using known) foreign
  | some byte =>
      obtain ⟨foreign, front, back, whole, known⟩ := List.find?_eq_some_iff_append.mp found
      exact ⟨front, byte, back, whole, by simpa using known, by simpa using foreign⟩

/-- Reading stops at the first byte that is no digit. -/
theorem readPairs_eq_error (position : Nat) {front back : List UInt8} {byte : UInt8}
    (known : ∀ b ∈ front, IsDigit b) (foreign : ¬ IsDigit byte)
    (even : (front ++ byte :: back).length % 2 = 0) :
    readPairs position (front ++ byte :: back) = .error (.digit byte (position + front.length)) := by
  -- The digits in front are read two at a time, so one or none of them is left.
  match front with
  | [] =>
      match back with
      | [] => simp at even
      | low :: rest =>
          rw [List.nil_append, readPairs, digitAt_eq_error foreign]
          rfl
  | [high] =>
      obtain ⟨value, digit⟩ := isDigit_iff.mp (known high (by simp))
      rw [List.singleton_append, readPairs, digitAt_eq_ok_iff.mpr digit, digitAt_eq_error foreign]
      rfl
  | high :: low :: front =>
      obtain ⟨h, highDigit⟩ := isDigit_iff.mp (known high (by simp))
      obtain ⟨l, lowDigit⟩ := isDigit_iff.mp (known low (by simp))
      have known : ∀ b ∈ front, IsDigit b := fun b member => known b (by simp [member])
      have even : (front ++ byte :: back).length % 2 = 0 := by
        simp only [List.cons_append, List.length_cons] at even
        omega
      have later := readPairs_eq_error (position + 2) known foreign even
      have place : position + 2 + front.length = position + (high :: low :: front).length := by
        simp only [List.length_cons]
        omega
      rw [List.cons_append, List.cons_append, readPairs, digitAt_eq_ok_iff.mpr highDigit,
        digitAt_eq_ok_iff.mpr lowDigit]
      show (readPairs (position + 2) _ >>= fun bytes => Except.ok (_ :: bytes)) = _
      rw [later, place]
      rfl

end PaymentTarget.Hex
