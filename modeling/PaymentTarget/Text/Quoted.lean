import PaymentTarget.Text.Basic

/-! # Quoted characters

A byte shown as the Latin-1 character with its number, between single quotes.
What cannot be seen is written as an escape, so that any byte can stand in a
message.
-/

namespace PaymentTarget.Text

/-- Whether a Latin-1 character leaves a visible mark of its own: neither a
    control character, nor the no-break space, nor the soft hyphen. -/
def isVisibleLatin (c : Char) : Bool :=
  let n := c.toNat
  (32 ≤ n && n ≤ 126) || (161 ≤ n && n != 173)

/-- A Latin-1 character as it is written between single quotes. -/
def escapeLatin (c : Char) : Text :=
  match c.toNat with
  | 0 => ['\\', '0']
  | 9 => ['\\', 't']
  | 10 => ['\\', 'n']
  | 13 => ['\\', 'r']
  | 39 => ['\\', '\x27']
  | 92 => ['\\', '\\']
  | n => if isVisibleLatin c then [c] else ['\\', 'u', '\x7b'] ++ Nat.toDigits 16 n ++ ['\x7d']

/-- A byte as a quoted Latin-1 character. -/
def quoteByte (byte : UInt8) : Text :=
  ['\x27'] ++ escapeLatin (Char.ofNat byte.toNat) ++ ['\x27']

end PaymentTarget.Text
