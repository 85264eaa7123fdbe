import PaymentTarget.Bits

/-! # Numbers as symbols

A number is written with the digits 0 to 31, the most significant first, in a
stated number of digits. Numbers are kept to 64 bits on reading: what is
shifted past the top is lost.
-/

namespace PaymentTarget

/-- The first number that needs more than 64 bits. -/
def wordBound : Nat :=
  Nat.pow 2 64

/-- The last `width` base-32 digits of `n`. -/
def symbolsOfNumber (n : Nat) : Nat → List Symbol
  | 0 => []
  | width + 1 => BitVec.ofNat 5 (n / Nat.pow 32 width) :: symbolsOfNumber n width

/-- The number that base-32 digits write, kept to 64 bits. -/
def numberOfSymbols (digits : List Symbol) : Nat :=
  digits.foldl (fun n d => (32 * n + d.toNat) % wordBound) 0

/-- The number of base-32 digits of `n`, which is at least one. -/
def symbolWidth (n : Nat) : Nat :=
  if h : n < 32 then 1 else symbolWidth (n / 32) + 1
termination_by n
decreasing_by exact Nat.div_lt_self (by omega) (by omega)

/-- A number is written in as many digits as asked for. -/
theorem length_symbolsOfNumber (n width : Nat) : (symbolsOfNumber n width).length = width := by
  induction width with
  | zero => rfl
  | succ width ih => simp [symbolsOfNumber, ih]

/-- A number in two digits. -/
theorem symbolsOfNumber_two (n : Nat) :
    symbolsOfNumber n 2 = [BitVec.ofNat 5 (n / 32), BitVec.ofNat 5 n] := by
  simp [symbolsOfNumber]

/-- Two digits are enough for the numbers below 1024. -/
theorem toNat_two_digits {n : Nat} (h : n < 1024) :
    32 * (BitVec.ofNat 5 (n / 32)).toNat + (BitVec.ofNat 5 n).toNat = n := by
  simp only [BitVec.toNat_ofNat]
  omega

end PaymentTarget
