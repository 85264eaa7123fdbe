import PaymentTarget.Text.Basic

/-! # Blank and control characters

The Unicode property `White_Space` and the general category `Cc`, as ranges of
code points, and the removal of blanks around a text.
-/

namespace PaymentTarget

/-- The code points with the property `White_Space`, as closed ranges. -/
def blankRanges : List (Nat × Nat) :=
  [(0x0009, 0x000d), (0x0020, 0x0020), (0x0085, 0x0085), (0x00a0, 0x00a0), (0x1680, 0x1680),
    (0x2000, 0x200a), (0x2028, 0x2029), (0x202f, 0x202f), (0x205f, 0x205f), (0x3000, 0x3000)]

/-- The code points of the general category `Cc`, as closed ranges. -/
def controlRanges : List (Nat × Nat) :=
  [(0x0000, 0x001f), (0x007f, 0x009f)]

/-- Whether the code point of `c` lies in one of the ranges. -/
def inRanges (ranges : List (Nat × Nat)) (c : Char) : Bool :=
  ranges.any fun (first, last) => first ≤ c.toNat && c.toNat ≤ last

/-- A character that only separates. -/
def isBlank (c : Char) : Bool :=
  inRanges blankRanges c

/-- A control character. -/
def isControl (c : Char) : Bool :=
  inRanges controlRanges c

/-- The text without the blanks before and after it. -/
def Text.trim (t : Text) : Text :=
  ((t.dropWhile isBlank).reverse.dropWhile isBlank).reverse

end PaymentTarget
