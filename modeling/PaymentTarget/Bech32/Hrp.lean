import PaymentTarget.Text.Basic
import PaymentTarget.Bits

/-! # Human-readable parts

The part of a Bech32 word before its separator: 1 to 83 visible ASCII
characters, all letters of one case. The faults are looked for in order, and
the characters from left to right.
-/

namespace PaymentTarget

/-- Why a text is no human-readable part. -/
inductive HrpFault where
  /-- There is no character. -/
  | empty
  /-- There are `size` bytes, more than 83. -/
  | tooLong (size : Nat)
  /-- A character that is not ASCII. -/
  | notAscii (c : Char)
  /-- An ASCII character that is blank or a control character. -/
  | notVisible (c : Char)
  /-- A letter of the other case than an earlier one. -/
  | mixedCase
  deriving Repr, DecidableEq

namespace Hrp

/-- The most bytes a human-readable part can have. -/
def maxSize : Nat := 83

/-- The first faulty character, when `small` and `capital` say which letters
    were seen before. -/
def characterFault? (small capital : Bool) : Text → Option HrpFault
  | [] => none
  | c :: rest =>
      if 128 ≤ c.toNat then some (.notAscii c)
      else if c.toNat < 33 ∨ 126 < c.toNat then some (.notVisible c)
      else if (c.isLower && capital) || (c.isUpper && small) then some .mixedCase
      else characterFault? (small || c.isLower) (capital || c.isUpper) rest

/-- The first fault of a human-readable part. -/
def fault? (hrp : Text) : Option HrpFault :=
  if hrp.isEmpty then some .empty
  else if maxSize < hrp.size then some (.tooLong hrp.size)
  else characterFault? false false hrp

/-- The symbols by which a human-readable part enters the checksum: the upper
    bits of its characters, a zero, and the lower five bits. -/
def expand (hrp : Text) : List Symbol :=
  hrp.map (fun c => BitVec.ofNat 5 (c.toNat / 32)) ++ [0#5]
    ++ hrp.map (fun c => BitVec.ofNat 5 c.toNat)

end Hrp

end PaymentTarget
