import PaymentTarget.Address.Legacy
import PaymentTarget.Proofs.Base58

/-! # Base58 addresses are the texts of payloads

An address is a version byte and a hash with their checksum. Base58 writes the
twenty-five bytes in one way only, and none of these texts is too short or too
long to be looked at, so the reader accepts them and nothing else.

Twenty-five bytes that start with a version byte are a number between two
multiples of 256 ^ 24. The leading base-58 digit of such a number is settled:
version 0 is written with a leading `1`, version 5 starts with a `3`, the
versions of the test networks with `m`, `n` or `2`.
-/

namespace PaymentTarget

namespace Base58

/-- The leading digit of a number that fills twenty-five bytes and starts with a version byte
    other than zero. -/
theorem leading_value {version d : Nat} {ds es : List Nat}
    (known : version = 5 ∨ version = 111 ∨ version = 196)
    (bytes : ∀ e ∈ es, e < 256) (length : es.length = 24)
    (digits : ∀ e ∈ d :: ds, e < 58)
    (same : Radix.value 256 (version :: es) = Radix.value 58 (d :: ds)) :
    d ∈ [0, 1, 2, 44, 45] := by
  by_cases positive : d = 0
  · simp [positive]
  obtain ⟨below, digits⟩ := List.forall_mem_cons.mp digits
  have number := Radix.value_bounds (d := version) bytes
  have written := Radix.value_bounds (d := d) digits
  rw [same, length] at number
  -- Fewer digits write less than version 5 asks for, more of them exceed every version.
  have count : ds.length = 33 ∨ ds.length = 34 := by
    by_contra other
    rcases Nat.lt_or_ge ds.length 33 with short | long
    · have power : 58 ^ ds.length ≤ 58 ^ 32 := Nat.pow_le_pow_right (by omega) (by omega)
      have bound : (d + 1) * 58 ^ ds.length ≤ 58 * 58 ^ 32 := Nat.mul_le_mul (by omega) power
      omega
    · have power : 58 ^ 35 ≤ 58 ^ ds.length := Nat.pow_le_pow_right (by omega) (by omega)
      have bound : 1 * 58 ^ 35 ≤ d * 58 ^ ds.length :=
        Nat.mul_le_mul (Nat.pos_of_ne_zero positive) power
      omega
  simp only [List.mem_cons, List.not_mem_nil, or_false]
  rcases count with count | count <;> rw [count] at written <;>
    rcases known with rfl | rfl | rfl <;> omega

theorem opening_of_value {c : Char} {value : Nat} (digit : digitValue? c = some value)
    (leads : value ∈ [0, 1, 2, 44, 45]) : c ∈ ['1', '2', '3', 'm', 'n'] := by
  have openings : ∀ i ∈ [0, 1, 2, 44, 45], alphabet.getD i ' ' ∈ ['1', '2', '3', 'm', 'n'] := by
    decide
  obtain ⟨inside, rfl⟩ := getElem_of_digitValue? digit
  rw [← List.getD_eq_getElem alphabet ' ' inside]
  exact openings value leads

/-- Without leading zeros the bytes of a text are the base-256 digits of its number. -/
theorem digits_of_decode? {t : Text} {b : UInt8} {bytes : List UInt8} {d : Nat} {ds : List Nat}
    (read : decode? t = some (b :: bytes)) (digits : t.mapM digitValue? = some (d :: ds))
    (positive : d ≠ 0) :
    ∃ es, Radix.digits 256 (Radix.value 58 (d :: ds)) = b.toNat :: es ∧
      es.length = bytes.length := by
  have noZeros : (d :: ds).takeWhile (· == 0) = [] := by simp [positive]
  simp only [decode?, digits, Option.map_some, noZeros, Option.some.injEq, List.length_nil,
    List.replicate_zero, List.nil_append] at read
  obtain ⟨e, es, number, rfl, rfl⟩ := List.map_eq_cons_iff.mp read
  have small : e < 256 := Radix.digits_lt (number ▸ List.mem_cons_self)
  refine ⟨es, ?_, (List.length_map UInt8.ofNat).symm⟩
  rw [number, UInt8.toNat_ofNat', Nat.mod_eq_of_lt small]

end Base58

namespace Address

/-- The versions of payloads, and what is paid to with them. -/
inductive Versions : UInt8 → Address → Prop
  | mainKeyHash : Versions 0x00 ⟨.bitcoin, .p2pkh⟩
  | mainScriptHash : Versions 0x05 ⟨.bitcoin, .p2sh⟩
  | testKeyHash : Versions 0x6f ⟨.testnet, .p2pkh⟩
  | testScriptHash : Versions 0xc4 ⟨.testnet, .p2sh⟩

theorem ofVersionByte?_eq_some_iff {byte : UInt8} {a : Address} :
    ofVersionByte? byte = some a ↔ Versions byte a := by
  constructor
  · intro known
    unfold ofVersionByte? at known
    split at known <;> cases known
    · exact .mainKeyHash
    · exact .mainScriptHash
    · exact .testKeyHash
    · exact .testScriptHash
  · intro stands
    cases stands <;> rfl

theorem ofVersionByte?_isSome {byte : UInt8} {a : Address} (known : ofVersionByte? byte = some a) :
    byte = 0 ∨ byte = 5 ∨ byte = 111 ∨ byte = 196 := by
  cases ofVersionByte?_eq_some_iff.mp known <;> simp

theorem ofPayload_eq_ok_iff {payload : List UInt8} {a : Address} :
    ofPayload payload = .ok a ↔
      ∃ version hash, payload = version :: hash ∧ hash.length = 20 ∧ Versions version a := by
  simp only [← ofVersionByte?_eq_some_iff]
  unfold ofPayload
  constructor
  · intro made
    split at made
    · cases made
    next full =>
      rw [not_not, base58PayloadLength] at full
      obtain ⟨version, hash, rfl⟩ := List.exists_cons_of_length_eq_add_one full
      refine ⟨version, hash, rfl, by simpa using full, ?_⟩
      split at made
      · cases made
      next known => rw [← Except.ok.inj made, ← known, List.headD_cons]
  · intro ⟨version, hash, whole, length, known⟩
    have full : payload.length = base58PayloadLength := by simp [whole, length, base58PayloadLength]
    rw [if_neg (not_not.mpr full), whole, List.headD_cons, known]

/-- An address is read from the text of a payload with its checksum, and from no other text. -/
theorem readBase58_eq_ok_iff {t : Text} {a : Address} :
    readBase58 t = .ok a ↔
      ∃ payload, ofPayload payload = .ok a ∧ t = Base58.encodeCheck payload := by
  constructor
  · intro read
    unfold readBase58 at read
    split at read
    · cases read
    · split at read
      · cases read
      next bytes decoded =>
        simp only at read
        split at read
        · cases read
        next checked =>
          refine ⟨_, read, ?_⟩
          rw [not_not] at checked
          rw [Base58.encodeCheck, checked, List.take_append_drop]
          exact Base58.decode?_eq_some_iff.mp decoded
  · intro ⟨payload, made, spelled⟩
    obtain ⟨version, hash, whole, length, -⟩ := ofPayload_eq_ok_iff.mp made
    have full : payload.length = 21 := by simp [whole, length]
    have sized := Base58.size_encodeCheck full
    have decoded := Base58.decode?_eq_some_iff.mpr spelled
    have cut : (payload ++ Base58.checksum payload).length - Base58.checksumLength
        = payload.length := by
      simp [Base58.length_checksum, Base58.checksumLength]
    rw [← spelled] at sized
    rw [readBase58, if_neg (by simp only [base58Sizes]; omega), decoded]
    simp only [cut, List.take_left, List.drop_left, ne_eq, not_true, if_false]
    exact made

theorem readBase58_eq_ok {t : Text} {a : Address} (read : readBase58 t = .ok a) :
    ∃ b bytes, Base58.decode? t = some (b :: bytes) ∧ bytes.length = 24 ∧
      ofVersionByte? b = some a := by
  obtain ⟨payload, made, spelled⟩ := readBase58_eq_ok_iff.mp read
  obtain ⟨version, hash, rfl, length, stands⟩ := ofPayload_eq_ok_iff.mp made
  refine ⟨version, hash ++ Base58.checksum (version :: hash), ?_, ?_, ?_⟩
  · exact Base58.decode?_eq_some_iff.mpr spelled
  · simp [length, Base58.length_checksum]
  · exact ofVersionByte?_eq_some_iff.mpr stands

/-- Base58 addresses begin with one of five characters. -/
theorem cons_of_readBase58 {t : Text} {a : Address} (read : readBase58 t = .ok a) :
    ∃ c rest, t = c :: rest ∧ c ∈ ['1', '2', '3', 'm', 'n'] := by
  obtain ⟨b, bytes, decoded, length, known⟩ := readBase58_eq_ok read
  obtain ⟨values, digits, -⟩ := Option.map_eq_some_iff.mp decoded
  have below := Base58.lt_of_mem_values digits
  cases mapM_eq_some_iff.mp digits with
  | nil =>
      simp only [Base58.decode?, digits, Option.map_some, Radix.value, List.foldl_nil,
        Radix.digits_zero] at decoded
      cases decoded
  | @cons c d rest ds digit _ =>
      refine ⟨c, rest, rfl, Base58.opening_of_value digit ?_⟩
      by_cases positive : d = 0
      · simp [positive]
      · obtain ⟨es, number, rest⟩ := Base58.digits_of_decode? decoded digits positive
        have version : b.toNat = 5 ∨ b.toNat = 111 ∨ b.toNat = 196 := by
          have leads := Radix.head_digits_ne_zero number
          rcases ofVersionByte?_isSome known with rfl | rfl | rfl | rfl <;> simp at leads ⊢
        have same := Radix.value_digits (show 1 < 256 by omega) (Radix.value 58 (d :: ds))
        rw [number] at same
        have bytes : ∀ e ∈ es, e < 256 := fun e member =>
          Radix.digits_lt (number ▸ List.mem_cons_of_mem _ member)
        exact Base58.leading_value version bytes (by omega) below same

/-- Base58 addresses are the texts of a known version, a hash and their checksum. No such text is
    refused for its size, and each is what its own bytes are written as. -/
theorem readBase58_iff_encode :
    (∀ t a, readBase58 t = .ok a ↔
        ∃ version hash, Versions version a ∧ hash.length = 20 ∧
          t = Base58.encode
            (version :: hash ++ (Sha256.digest (Sha256.digest (version :: hash))).take 4)) ∧
      (∀ (version : UInt8) (hash : List UInt8), hash.length = 20 →
        let t := Base58.encode
          (version :: hash ++ (Sha256.digest (Sha256.digest (version :: hash))).take 4)
        26 ≤ t.size ∧ t.size ≤ 35) ∧
      ∀ t a, readBase58 t = .ok a →
        ∃ bytes, Base58.decode? t = some bytes ∧ bytes.length = 25 ∧ Base58.encode bytes = t := by
  refine ⟨?_, ?_, ?_⟩
  · intro t a
    simp only [readBase58_eq_ok_iff, ofPayload_eq_ok_iff]
    constructor
    · intro ⟨payload, ⟨version, hash, whole, length, stands⟩, spelled⟩
      exact ⟨version, hash, stands, length, whole ▸ spelled⟩
    · intro ⟨version, hash, stands, length, spelled⟩
      exact ⟨version :: hash, ⟨version, hash, rfl, length, stands⟩, spelled⟩
  · intro version hash length
    exact Base58.size_encodeCheck (by simp [length])
  · intro t a read
    obtain ⟨version, bytes, decoded, length, -⟩ := readBase58_eq_ok read
    exact ⟨version :: bytes, decoded, by simp [length],
      (Base58.decode?_eq_some_iff.mp decoded).symm⟩

/-- Addresses of each version, and one of the shortest, with 26 characters of which twenty are for
    leading zeros. The digests are those of the standard for no byte, for one block and for two. -/
theorem readBase58_iff_encode_of_each :
    let first : List UInt8 :=
      [0x62, 0xe9, 0x07, 0xb1, 0x5c, 0xbf, 0x27, 0xd5, 0x42, 0x53, 0x99, 0xeb, 0xf6, 0xf0, 0xfb,
        0x50, 0xeb, 0xb8, 0x8f, 0x18]
    let script : List UInt8 :=
      [0xb4, 0x72, 0xa2, 0x66, 0xd0, 0xbd, 0x89, 0xc1, 0x37, 0x06, 0xa4, 0x13, 0x2c, 0xcf, 0xb1,
        0x6f, 0x7c, 0x3b, 0x9f, 0xcb]
    let short : List UInt8 := List.replicate 19 0 ++ [1]
    (Versions 0x00 ⟨.bitcoin, .p2pkh⟩ ∧ first.length = 20 ∧
        readBase58 "1A1zP1eP5QGefi2DMPTfTL5SLmv7DivfNa".toList = .ok ⟨.bitcoin, .p2pkh⟩) ∧
      (Versions 0x05 ⟨.bitcoin, .p2sh⟩ ∧ script.length = 20 ∧
        readBase58 "3J98t1WpEZ73CNmQviecrnyiWrnqRhWNLy".toList = .ok ⟨.bitcoin, .p2sh⟩) ∧
      (Versions 0x6f ⟨.testnet, .p2pkh⟩ ∧
        readBase58 "mokhM9inegFGeyHpj52nQj8fNwH6eoBxT6".toList = .ok ⟨.testnet, .p2pkh⟩) ∧
      (Versions 0xc4 ⟨.testnet, .p2sh⟩ ∧
        readBase58 "2MsFDzHRUAMpjHxKyoEHU3aMCMsVtMqs1PV".toList = .ok ⟨.testnet, .p2sh⟩) ∧
      (short.length = 20 ∧
        readBase58 "11111111111111111111BZbvjr".toList = .ok ⟨.bitcoin, .p2pkh⟩ ∧
        26 ≤ Text.size "11111111111111111111BZbvjr".toList ∧
        ∃ bytes, Base58.decode? "11111111111111111111BZbvjr".toList = some bytes ∧
          bytes.length = 25 ∧ Base58.encode bytes = "11111111111111111111BZbvjr".toList) ∧
      Hex.encode (Sha256.digest []) =
        "e3b0c44298fc1c149afbf4c8996fb92427ae41e4649b934ca495991b7852b855".toList ∧
      Hex.encode (Sha256.digest (Text.utf8 "abc".toList)) =
        "ba7816bf8f01cfea414140de5dae2223b00361a396177a9cb410ff61f20015ad".toList ∧
      Hex.encode (Sha256.digest
          (Text.utf8 "abcdbcdecdefdefgefghfghighijhijkijkljklmklmnlmnomnopnopq".toList)) =
        "248d6a61d20638b8e5c026930c3e6039a33ce45964ff2167f6ecedd419db06c1".toList := by
  intro first script short
  obtain ⟨written, sized, rewritten⟩ := readBase58_iff_encode
  have readFirst := (written "1A1zP1eP5QGefi2DMPTfTL5SLmv7DivfNa".toList _).mpr
    ⟨0x00, first, .mainKeyHash, rfl, by decide +kernel⟩
  have readScript := (written "3J98t1WpEZ73CNmQviecrnyiWrnqRhWNLy".toList _).mpr
    ⟨0x05, script, .mainScriptHash, rfl, by decide +kernel⟩
  have readTest := (written "mokhM9inegFGeyHpj52nQj8fNwH6eoBxT6".toList _).mpr
    ⟨0x6f, List.replicate 20 0x5a, .testKeyHash, rfl, by decide +kernel⟩
  have readTestScript := (written "2MsFDzHRUAMpjHxKyoEHU3aMCMsVtMqs1PV".toList _).mpr
    ⟨0xc4, List.replicate 20 0x00, .testScriptHash, rfl, by decide +kernel⟩
  have spelled : "11111111111111111111BZbvjr".toList = Base58.encode
      (0x00 :: short ++ (Sha256.digest (Sha256.digest (0x00 :: short))).take 4) := by
    decide +kernel
  have readShort := (written _ _).mpr ⟨0x00, short, .mainKeyHash, rfl, spelled⟩
  refine ⟨⟨.mainKeyHash, rfl, readFirst⟩, ⟨.mainScriptHash, rfl, readScript⟩,
    ⟨.testKeyHash, readTest⟩, ⟨.testScriptHash, readTestScript⟩,
    ⟨rfl, readShort, spelled ▸ (sized 0x00 short rfl).1, rewritten _ _ readShort⟩, ?_, ?_, ?_⟩
  · decide +kernel
  · decide +kernel
  · decide +kernel

end Address

end PaymentTarget
