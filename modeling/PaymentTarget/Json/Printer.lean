import PaymentTarget.Json.Basic

/-! # Printed JSON

Every item and every member stands on a line of its own, indented by two blanks
for each level; an empty array or object is closed at once. In a string only
quotes, backslashes and control characters below the blank are escaped.
-/

namespace PaymentTarget.Json

/-- A character of a string as it is printed. -/
def escape (c : Char) : Text :=
  match c.toNat with
  | 8 => ['\\', 'b']
  | 9 => ['\\', 't']
  | 10 => ['\\', 'n']
  | 12 => ['\\', 'f']
  | 13 => ['\\', 'r']
  | 34 => ['\\', c]
  | 92 => ['\\', c]
  | n =>
      if n < 32 then
        ['\\', 'u', '0', '0', Nat.digitChar (n / 16), Nat.digitChar (n % 16)]
      else [c]

/-- A string between quotes. -/
def quote (t : Text) : Text :=
  ['\x22'] ++ t.flatMap escape ++ ['\x22']

/-- A line break and the indentation of a level. -/
def newLine (level : Nat) : Text :=
  '\n' :: List.replicate (2 * level) ' '

/-- A number with so many decimal places. -/
def decimalText (digits : Int) (places : Nat) : Text :=
  let shown := Nat.toDigits 10 digits.natAbs
  let padded := List.replicate (places + 1 - shown.length) '0' ++ shown
  (if digits < 0 then ['-'] else []) ++ padded.take (padded.length - places) ++ ['.']
    ++ padded.drop (padded.length - places)

/-- Lines between brackets, the closing one at `level`. -/
def bracket (opening closing : Char) (level : Nat) (lines : List Text) : Text :=
  if lines.isEmpty then [opening, closing]
  else
    let indented := lines.map fun line => newLine (level + 1) ++ line
    [opening] ++ (indented.intersperse [',']).flatten ++ newLine level ++ [closing]

mutual
/-- A value as it is printed at a level. -/
def printAt (level : Nat) : Json → Text
  | .null => "null".toList
  | .bool value => (toString value).toList
  | .integer value => (toString value).toList
  | .decimal digits places => decimalText digits places
  | .string value => quote value
  | .array items => bracket '[' ']' level (printItems (level + 1) items)
  | .object members => bracket '\x7b' '\x7d' level (printMembers (level + 1) members)

/-- The items of an array, each as it is printed at a level. -/
def printItems (level : Nat) : List Json → List Text
  | [] => []
  | item :: rest => printAt level item :: printItems level rest

/-- The members of an object, each as it is printed at a level. -/
def printMembers (level : Nat) : List (String × Json) → List Text
  | [] => []
  | (name, value) :: rest =>
      (quote name.toList ++ [':', ' '] ++ printAt level value) :: printMembers level rest
end

/-- A value as it is printed. -/
def print (j : Json) : Text :=
  printAt 0 j

end PaymentTarget.Json
