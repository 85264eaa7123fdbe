import PaymentTarget.Proofs.Bech32.Number

/-! # Numbers by shifts

Numbers are written as symbols and read from them the way a machine goes about
it, in a register of 64 bits: each digit is shifted down from its place, digits
are shifted in from the right, and the leading zeros tell how many digits there
are. A shift by all bits or more is a trap here. None is made, however many
digits are asked for, and the outcome is that of division and multiplication.
-/

namespace PaymentTarget

/-- A number as a machine keeps it, in 64 bits. -/
abbrev Register := BitVec 64

/-- What must not happen to a register. -/
inductive RegisterTrap where
  /-- A shift by all bits or more. -/
  | shift
  /-- A byte that is no symbol. -/
  | symbol
  /-- More leading zeros than bits. -/
  | zeros
  deriving Repr, DecidableEq

namespace Register

/-- The number without its last bits, of which there must be fewer than there are in all. -/
def shiftRight (v : Register) (bits : Nat) : Except RegisterTrap Register :=
  if bits < 64 then .ok (v >>> bits) else .error .shift

/-- The number with zeros behind it, of which there must be fewer than there are bits in all. -/
def shiftLeft (v : Register) (bits : Nat) : Except RegisterTrap Register :=
  if bits < 64 then .ok (v <<< bits) else .error .shift

/-- The symbol that a byte must be. -/
def symbol (byte : UInt8) : Except RegisterTrap Symbol :=
  if byte < 32 then .ok (BitVec.ofNat 5 byte.toNat) else .error .symbol

/-- The digit at a place, counted from the right without a bound. Where no bit is left it is zero,
and nothing is shifted. -/
def digit (v : Register) (place : Nat) : Except RegisterTrap Symbol := do
  let low ← if 64 ≤ 5 * place then .ok 0 else (v.shiftRight (5 * place)).map (· &&& 31)
  symbol (UInt8.ofNat low.toNat)

/-- The last `width` digits. -/
def digits (v : Register) (width : Nat) : Except RegisterTrap (List Symbol) :=
  (List.range width).reverse.mapM v.digit

/-- The number with one more digit. What is shifted past the top is lost. -/
def push (v : Register) (d : Symbol) : Except RegisterTrap Register :=
  (v.shiftLeft 5).map (· ||| d.setWidth 64)

/-- The number that digits write. -/
def ofDigits (digits : List Symbol) : Except RegisterTrap Register :=
  digits.foldlM push 0

/-- The number of digits, at least one, told by the leading zeros. -/
def width (v : Register) : Except RegisterTrap Nat :=
  let zeros := v.clz.toNat
  if zeros ≤ 64 then .ok (max ((64 - zeros) ⌈/⌉ 5) 1) else .error .zeros

theorem shiftRight_of_lt (v : Register) {bits : Nat} (inside : bits < 64) :
    v.shiftRight bits = .ok (v >>> bits) :=
  if_pos inside

theorem shiftLeft_of_lt (v : Register) {bits : Nat} (inside : bits < 64) :
    v.shiftLeft bits = .ok (v <<< bits) :=
  if_pos inside

theorem symbol_of_lt {n : Nat} (small : n < 32) :
    symbol (UInt8.ofNat n) = .ok (BitVec.ofNat 5 n) := by
  have byte : (UInt8.ofNat n).toNat = n := UInt8.toNat_ofNat_of_lt' (small.trans (by decide))
  have below : UInt8.ofNat n < 32 := UInt8.lt_iff_toNat_lt.mpr (by rwa [byte])
  rw [symbol, if_pos below, byte]

theorem toNat_shiftRight_and (v : Register) (place : Nat) :
    (v >>> (5 * place) &&& 31).toNat = v.toNat / 32 ^ place % 32 := by
  have mask : (31 : Register).toNat = 2 ^ 5 - 1 := rfl
  rw [BitVec.toNat_and, BitVec.toNat_ushiftRight, mask, Nat.and_two_pow_sub_one_eq_mod,
    Nat.shiftRight_eq_div_pow, ← pow_thirtyTwo]

theorem digit_eq (v : Register) (place : Nat) :
    v.digit place = .ok (BitVec.ofNat 5 (v.toNat / 32 ^ place)) := by
  unfold digit
  split
  next outside =>
    -- All bits are at lower places, so that division leaves zero too.
    have few : v.toNat < 32 ^ place := by
      rw [pow_thirtyTwo]
      exact v.isLt.trans_le (Nat.pow_le_pow_right (by decide) outside)
    rw [Nat.div_eq_of_lt few]
    rfl
  next inside =>
    rw [shiftRight_of_lt v (Nat.not_le.mp inside)]
    show symbol (UInt8.ofNat (v >>> (5 * place) &&& 31).toNat) = _
    rw [toNat_shiftRight_and, symbol_of_lt (Nat.mod_lt _ (by decide))]
    exact congrArg Except.ok (BitVec.eq_of_toNat_eq (by simp))

theorem digits_eq (v : Register) (width : Nat) :
    v.digits width = .ok (symbolsOfNumber v.toNat width) := by
  induction width with
  | zero => rfl
  | succ width ih =>
      rw [digits] at ih
      rw [digits, List.range_succ, List.reverse_append, List.reverse_singleton, List.singleton_append,
        List.mapM_cons, digit_eq, ih]
      rfl

theorem toNat_shiftLeft_or (v : Register) (d : Symbol) :
    (v <<< 5 ||| d.setWidth 64).toNat = (32 * v.toNat + d.toNat) % wordBound := by
  have top : wordBound = 2 ^ 64 := rfl
  have digit := d.isLt
  -- The five lowest bits are free after the shift, so that a digit is added by `|||`.
  have kept : v.toNat <<< 5 % 2 ^ 64 = 2 ^ 5 * (v.toNat % 2 ^ 59) := by
    rw [Nat.shiftLeft_eq]
    omega
  have widened : (d.setWidth 64).toNat = d.toNat := BitVec.toNat_setWidth_of_le (by decide)
  rw [BitVec.toNat_or, BitVec.toNat_shiftLeft, kept, widened, ← Nat.two_pow_add_eq_or_of_lt digit,
    top]
  omega

theorem push_eq (v : Register) (d : Symbol) :
    v.push d = .ok (BitVec.ofNat 64 (32 * v.toNat + d.toNat)) := by
  rw [push, shiftLeft_of_lt v (by decide)]
  exact congrArg Except.ok (BitVec.eq_of_toNat_eq (toNat_shiftLeft_or v d))

theorem ofDigits_eq (digits : List Symbol) :
    ofDigits digits = .ok (BitVec.ofNat 64 (numberOfSymbols digits)) := by
  induction digits using List.reverseRecOn with
  | nil => rfl
  | append_singleton digits d ih =>
      have before : (BitVec.ofNat 64 (numberOfSymbols digits)).toNat = numberOfSymbols digits := by
        rw [BitVec.toNat_ofNat]
        exact Nat.mod_eq_of_lt (numberOfSymbols_lt_wordBound digits)
      have last : ofDigits (digits ++ [d]) =
          push (BitVec.ofNat 64 (numberOfSymbols digits)) d >>= pure := by
        rw [ofDigits] at ih
        rw [ofDigits, List.foldlM_append, ih]
        rfl
      rw [last, bind_pure, push_eq, before, numberOfSymbols_concat]
      exact congrArg Except.ok (BitVec.eq_of_toNat_eq (Nat.mod_mod _ _).symm)

theorem clz_le (v : Register) : v.clz.toNat ≤ 64 := by
  have := BitVec.le_def.mp (BitVec.clz_le (x := v))
  simpa using this

/-- The bits that leading zeros leave are those that the number needs. -/
theorem bits_le_iff (v : Register) (bits : Nat) : 64 - v.clz.toNat ≤ bits ↔ v.toNat < 2 ^ bits := by
  constructor
  · intro few
    exact BitVec.toNat_lt_two_pow_sub_clz.trans_le (Nat.pow_le_pow_right (by decide) few)
  · intro small
    by_cases zero : v = 0
    · rw [BitVec.clz_eq_iff_eq_zero.mpr zero]
      exact Nat.zero_le bits
    · have leading := (BitVec.two_pow_sub_clz_le_toNat_of_ne_zero (by decide) zero).trans_lt small
      have places := (Nat.pow_lt_pow_iff_right (by decide)).mp leading
      omega

theorem width_eq (v : Register) : v.width = .ok (symbolWidth v.toNat) := by
  have least : IsLeast {width | 1 ≤ width ∧ v.toNat < 2 ^ (5 * width)}
      (max ((64 - v.clz.toNat) ⌈/⌉ 5) 1) := by
    simp only [← bits_le_iff, ← ceilDiv_le_iff_le_mul (show 0 < 5 by decide)]
    exact ⟨⟨le_max_right _ _, le_max_left _ _⟩, fun width fits => max_le fits.2 fits.1⟩
  rw [width, if_pos (clz_le v), least.unique (isLeast_symbolWidth v.toNat)]

/-- A register is written in as many symbols as asked for, and what they hold of it, or all of it,
is read again. Up to twelve symbols come back from the number that they write, and the width of a
number is the least that holds it. Nothing of this needs a shift by 64 bits or more. -/
theorem symbols_exact :
    (∀ (v : Register) (width : Nat),
      v.digits width = .ok (symbolsOfNumber v.toNat width) ∧
      (symbolsOfNumber v.toNat width).length = width ∧
      numberOfSymbols (symbolsOfNumber v.toNat width) = v.toNat % 2 ^ min (5 * width) 64) ∧
    (∀ symbols : List Symbol,
      (ofDigits symbols).map BitVec.toNat = .ok (numberOfSymbols symbols) ∧
      (symbols.length ≤ 12 →
        numberOfSymbols symbols < 2 ^ (5 * symbols.length) ∧
        symbolsOfNumber (numberOfSymbols symbols) symbols.length = symbols)) ∧
    ∀ v : Register,
      v.width = .ok (symbolWidth v.toNat) ∧
      IsLeast {width | 1 ≤ width ∧ v.toNat < 2 ^ (5 * width)} (symbolWidth v.toNat) := by
  refine ⟨?written, ?read, ?width⟩
  case written =>
    intro v width
    exact ⟨digits_eq v width, length_symbolsOfNumber _ width,
      numberOfSymbols_symbolsOfNumber _ width⟩
  case read =>
    intro symbols
    refine ⟨?_, fun short => ⟨?_, symbolsOfNumber_numberOfSymbols short⟩⟩
    · rw [ofDigits_eq]
      exact congrArg Except.ok (Nat.mod_eq_of_lt (numberOfSymbols_lt_wordBound symbols))
    · exact pow_thirtyTwo symbols.length ▸ numberOfSymbols_lt short
  case width =>
    intro v
    exact ⟨width_eq v, isLeast_symbolWidth v.toNat⟩

/-- The greatest register needs thirteen symbols. It keeps them in fourteen, and twelve hold its last
60 bits, which come back from the number that they write. -/
theorem symbols_exact_of_ones :
    let v : Register := BitVec.allOnes 64
    let last := List.replicate 12 31#5
    v.digits 14 = .ok (0 :: 15 :: last) ∧ numberOfSymbols (0 :: 15 :: last) = 2 ^ 64 - 1 ∧
      v.digits 12 = .ok last ∧ last.length ≤ 12 ∧ numberOfSymbols last = 2 ^ 60 - 1 ∧
      symbolsOfNumber (numberOfSymbols last) 12 = last ∧ v.width = .ok 13 := by
  intro v last
  obtain ⟨written, read, width⟩ := symbols_exact
  have all : symbolsOfNumber v.toNat 14 = 0 :: 15 :: last := by decide +kernel
  have few : symbolsOfNumber v.toNat 12 = last := by decide +kernel
  have needed : symbolWidth v.toNat = 13 := by decide +kernel
  obtain ⟨digits, -, number⟩ := written v 14
  obtain ⟨digits', -, number'⟩ := written v 12
  have short : last.length ≤ 12 := by decide
  rw [all] at digits number
  rw [few] at digits' number'
  have whole : v.toNat % 2 ^ min (5 * 14) 64 = 2 ^ 64 - 1 := by decide +kernel
  have low : v.toNat % 2 ^ min (5 * 12) 64 = 2 ^ 60 - 1 := by decide +kernel
  exact ⟨digits, number.trans whole, digits', short, number'.trans low, ((read last).2 short).2,
    needed ▸ (width v).1⟩

end Register

end PaymentTarget
