import PaymentTarget.Text.Basic

/-! # JSON values

Values as reports hold them and as settings are stored in. Members of an object
keep their order. A number written without fraction is an integer; any other
number is kept as written, and is never taken for an integer.
-/

namespace PaymentTarget

/-- A JSON value. -/
inductive Json where
  /-- The value `null`. -/
  | null
  /-- A truth value. -/
  | bool (value : Bool)
  /-- A number without fraction. -/
  | integer (value : Int)
  /-- A number with so many decimal places, all digits read as one integer. -/
  | decimal (digits : Int) (places : Nat)
  | string (value : Text)
  | array (items : List Json)
  | object (members : List (String × Json))
  deriving Repr, Inhabited

namespace Json

/-- A string with the characters of `s`. -/
def ofString (s : String) : Json :=
  .string s.toList

/-- A natural number. -/
def ofNat (n : Nat) : Json :=
  .integer n

/-- A value that may be absent, which is `null` then. -/
def ofOption (toJson : α → Json) : Option α → Json
  | none => .null
  | some value => toJson value

def member? (name : String) (members : List (String × Json)) : Option Json :=
  members.lookup name

/-- The values of named members, in the order of the names. A record is an
    object, of which other members are passed over, or an array of at most as
    many values, in the order of the names. -/
def record? (names : List String) : Json → Option (List (Option Json))
  | .object members => some (names.map fun name => member? name members)
  | .array items =>
      if items.length ≤ names.length then
        some (items.map some ++ List.replicate (names.length - items.length) none)
      else none
  | _ => none

/-- The word that a value stands for: a string, or an object with one member of
    that name that is `null`. -/
def word? : Json → Option String
  | .string value => some (String.ofList value)
  | .object [(name, .null)] => some name
  | _ => none

/-- The text of a string. -/
def text? : Json → Option Text
  | .string value => some value
  | _ => none

/-- The truth value. -/
def bool? : Json → Option Bool
  | .bool value => some value
  | _ => none

/-- The integer from 0 to 255. -/
def byte? : Json → Option UInt8
  | .integer value => if 0 ≤ value ∧ value < 256 then some (UInt8.ofNat value.toNat) else none
  | _ => none

end Json

end PaymentTarget
