import PaymentTarget.Base58
import PaymentTarget.Proofs.Radix
import PaymentTarget.Proofs.Text

/-! # Base58 is a change of base

Bytes are a numeral in base 256 and a text is one in base 58; leading zeros are
leading `1`s. Both directions are the same conversion, so every text of base-58
digits is the text of just the bytes that are read from it. How long the text
of an address is follows from the number its bytes write: each leading zero
byte saves in the number what it costs as a `1`.
-/

namespace PaymentTarget.Base58

theorem getElem_of_digitValue? {c : Char} {value : Nat} (digit : digitValue? c = some value) :
    ∃ inside : value < alphabet.length, alphabet[value] = c := by
  obtain ⟨inside, same, -⟩ := List.idxOf?_eq_some_iff.mp digit
  exact ⟨inside, same⟩

theorem digitValue?_lt {c : Char} {value : Nat} (digit : digitValue? c = some value) :
    value < 58 := by
  obtain ⟨inside, -⟩ := getElem_of_digitValue? digit
  exact inside

theorem lt_of_mem_values {t : Text} {values : List Nat}
    (read : t.mapM digitValue? = some values) : ∀ value ∈ values, value < 58 := by
  rw [mapM_eq_some_iff] at read
  induction read with
  | nil => simp
  | cons digit _ ih => exact List.forall_mem_cons.mpr ⟨digitValue?_lt digit, ih⟩

theorem digitValue?_digit {value : Nat} (below : value < 58) :
    digitValue? (digit value) = some value := by
  have all : ∀ v : Fin 58, digitValue? (digit v) = some v.val := by decide
  exact all ⟨value, below⟩

theorem digit_of_digitValue? {c : Char} {value : Nat} (read : digitValue? c = some value) :
    digit value = c := by
  obtain ⟨inside, same⟩ := getElem_of_digitValue? read
  rw [digit, List.getD_eq_getElem alphabet '1' inside, same]

theorem mapM_digitValue?_eq_some_iff {t : Text} {values : List Nat} :
    t.mapM digitValue? = some values ↔ (∀ v ∈ values, v < 58) ∧ t = values.map digit := by
  constructor
  · intro read
    refine ⟨lt_of_mem_values read, ?_⟩
    rw [mapM_eq_some_iff] at read
    induction read with
    | nil => rfl
    | cons first _ ih => rw [List.map_cons, digit_of_digitValue? first, ih]
  · intro ⟨below, spelled⟩
    rw [mapM_eq_some_iff, spelled, List.forall₂_map_left_iff]
    exact List.forall₂_same.mpr fun v member => digitValue?_digit (below v member)

section Bytes

variable {bytes : List UInt8}

theorem toNat_map_ofNat {values : List Nat} (below : ∀ v ∈ values, v < 256) :
    (values.map UInt8.ofNat).map UInt8.toNat = values := by
  rw [List.map_map]
  conv_rhs => rw [← List.map_id values]
  apply List.map_congr_left
  intro v member
  simpa using below v member

theorem ofNat_map_toNat (bytes : List UInt8) :
    (bytes.map UInt8.toNat).map UInt8.ofNat = bytes := by
  simp [Function.comp_def]

theorem toNat_lt_of_mem {v : Nat} (member : v ∈ bytes.map UInt8.toNat) : v < 256 := by
  obtain ⟨b, -, rfl⟩ := List.mem_map.mp member
  exact b.toNat_lt

theorem encode_eq_convert (bytes : List UInt8) :
    encode bytes = (Radix.convert 256 58 (bytes.map UInt8.toNat)).map digit := by
  have zeros : ((bytes.map UInt8.toNat).takeWhile (· == 0)).length =
      (bytes.takeWhile (· == 0)).length := by
    rw [List.takeWhile_map, List.length_map]
    congr 2
    funext b
    rw [Function.comp_apply, Bool.eq_iff_iff, beq_iff_eq, beq_iff_eq]
    exact UInt8.toNat_inj (b := 0)
  rw [encode, Radix.convert, zeros, List.map_append, List.map_replicate]
  rfl

theorem decode?_eq_convert (t : Text) :
    decode? t = (t.mapM digitValue?).map fun values =>
      (Radix.convert 58 256 values).map UInt8.ofNat := by
  simp [decode?, Radix.convert]

/-- A text stands for some bytes just if it is the text written for them. -/
theorem decode?_eq_some_iff {t : Text} : decode? t = some bytes ↔ t = encode bytes := by
  rw [decode?_eq_convert, encode_eq_convert, Option.map_eq_some_iff]
  constructor
  · intro ⟨values, read, converted⟩
    obtain ⟨below, spelled⟩ := mapM_digitValue?_eq_some_iff.mp read
    rw [← converted, toNat_map_ofNat fun v => Radix.convert_lt (by omega),
      Radix.convert_convert (by omega) (by omega) below, spelled]
  · intro spelled
    refine ⟨Radix.convert 256 58 (bytes.map UInt8.toNat), ?_, ?_⟩
    · exact mapM_digitValue?_eq_some_iff.mpr ⟨fun v => Radix.convert_lt (by omega), spelled⟩
    · rw [Radix.convert_convert (by omega) (by omega) fun v => toNat_lt_of_mem, ofNat_map_toNat]

theorem size_encode (bytes : List UInt8) :
    (encode bytes).size = (Radix.convert 256 58 (bytes.map UInt8.toNat)).length := by
  have ascii : ∀ v : Fin 58, (digit v).toNat < 128 := by decide
  rw [encode_eq_convert, Text.size_eq_length, List.length_map]
  intro c member
  obtain ⟨v, inside, rfl⟩ := List.mem_map.mp member
  exact ascii ⟨v, Radix.convert_lt (by omega) inside⟩

/-- The size of a text is the number of leading zero bytes and of the digits behind them. -/
theorem exists_zeros_size_encode (bytes : List UInt8) :
    ∃ (zeros : Nat) (rest : List Nat),
      bytes.map UInt8.toNat = List.replicate zeros 0 ++ rest ∧ rest.head? ≠ some 0 ∧
        zeros + rest.length = bytes.length ∧
        (encode bytes).size = zeros + (Radix.digits 58 (Radix.value 256 rest)).length := by
  obtain ⟨rest, whole, leads⟩ := Radix.leading_zeros (bytes.map UInt8.toNat)
  refine ⟨_, rest, whole, leads, ?_, ?_⟩
  · simpa using (congrArg List.length whole).symm
  · rw [size_encode]
    conv_lhs => rw [whole, Radix.convert_zeros _ leads]
    simp

theorem size_encode_le (length : bytes.length = 25) : (encode bytes).size ≤ 35 := by
  obtain ⟨zeros, rest, whole, -, total, size⟩ := exists_zeros_size_encode bytes
  have below : ∀ v ∈ rest, v < 256 := by
    intro v member
    exact toNat_lt_of_mem (whole ▸ List.mem_append_right _ member)
  have room : ∀ z : Fin 26, 256 ^ (25 - z.val) ≤ 58 ^ (35 - z.val) := by decide
  have number : Radix.value 256 rest < 58 ^ (35 - zeros) := by
    calc
      Radix.value 256 rest < 256 ^ rest.length := Radix.value_lt below
      _ = 256 ^ (25 - zeros) := by rw [show rest.length = 25 - zeros by omega]
      _ ≤ 58 ^ (35 - zeros) := room ⟨zeros, by omega⟩
  have digits := Radix.length_digits_le (show 1 < 58 by omega) number
  omega

/-- Two digits are enough for a byte. -/
theorem size_encode_le_double (bytes : List UInt8) : (encode bytes).size ≤ 2 * bytes.length := by
  obtain ⟨zeros, rest, whole, -, total, size⟩ := exists_zeros_size_encode bytes
  have below : ∀ v ∈ rest, v < 256 := by
    intro v member
    exact toNat_lt_of_mem (whole ▸ List.mem_append_right _ member)
  have number : Radix.value 256 rest < 58 ^ (2 * rest.length) := by
    calc
      Radix.value 256 rest < 256 ^ rest.length := Radix.value_lt below
      _ ≤ (58 ^ 2) ^ rest.length := Nat.pow_le_pow_left (by decide) _
      _ = 58 ^ (2 * rest.length) := (Nat.pow_mul ..).symm
  have digits := Radix.length_digits_le (show 1 < 58 by omega) number
  omega

/-- Five bytes that do not start with a zero are written in six digits at least, and every
    leading zero in front of them adds one. -/
theorem le_size_encode {payload check : List UInt8} (length : payload.length = 21)
    (checkLength : check.length = 4) (nonzero : payload ≠ List.replicate 21 0) :
    26 ≤ (encode (payload ++ check)).size := by
  obtain ⟨zeros, rest, whole, leads, total, size⟩ := exists_zeros_size_encode (payload ++ check)
  rw [List.length_append, length, checkLength] at total
  have few : zeros ≤ 20 := by
    by_contra many
    apply nonzero
    have opening := congrArg (List.take 21) whole
    rw [List.map_append, List.take_left' (by simpa using length), List.take_append_of_le_length
      (by rw [List.length_replicate]; omega), List.take_replicate, Nat.min_eq_left (by omega)]
      at opening
    rw [← ofNat_map_toNat payload, opening, List.map_replicate]
    rfl
  have room : ∀ z : Fin 21, 58 ^ (25 - z.val) ≤ 256 ^ (24 - z.val) := by decide
  cases rest with
  | nil =>
      rw [List.length_nil] at total
      omega
  | cons d ds =>
      have first : 0 < d := Nat.pos_of_ne_zero (by simpa using leads)
      rw [List.length_cons] at total
      have number : 58 ^ (25 - zeros) ≤ Radix.value 256 (d :: ds) := by
        calc
          58 ^ (25 - zeros) ≤ 256 ^ (24 - zeros) := room ⟨zeros, by omega⟩
          _ = 256 ^ ds.length := by rw [show ds.length = 24 - zeros by omega]
          _ ≤ d * 256 ^ ds.length := Nat.le_mul_of_pos_left _ first
          _ ≤ Radix.value 256 (d :: ds) := by
            rw [Radix.value_cons]
            omega
      have digits := Radix.lt_length_digits (show 1 < 58 by omega) number
      omega

end Bytes

theorem length_checksum (payload : List UInt8) : (checksum payload).length = 4 := by
  simp [checksum, checksumLength, Sha256.doubleDigest, Sha256.length_digest]

/-- The payload of zeros has no digit to spare in its checksum: that no further zero leads there
    is seen by computing it. -/
theorem size_encodeCheck_zeros : (encodeCheck (List.replicate 21 0)).size = 27 := by
  decide +kernel

theorem size_encodeCheck {payload : List UInt8} (length : payload.length = 21) :
    26 ≤ (encodeCheck payload).size ∧ (encodeCheck payload).size ≤ 35 := by
  refine ⟨?_, size_encode_le (by simp [length, length_checksum])⟩
  by_cases zeros : payload = List.replicate 21 0
  · rw [zeros, size_encodeCheck_zeros]
    omega
  · exact le_size_encode length (length_checksum payload) zeros

end PaymentTarget.Base58
