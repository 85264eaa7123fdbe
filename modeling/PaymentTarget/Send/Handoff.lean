import PaymentTarget.Send.Payable
import PaymentTarget.Text.Percent

/-! # The hand-off to amount entry

What amount entry is told is a destination and its kind, as a query of two
pairs. The destination is percent-encoded. On reading, the pairs may come in
either order and empty pairs are passed over; anything else is a fault, and the
leftmost one is reported.
-/

namespace PaymentTarget

/-- What amount entry has to pay. -/
structure Handoff where
  /-- The text that was entered. -/
  destination : Text
  /-- What kind of destination it is. -/
  kind : PayableKind
  deriving Repr, DecidableEq

/-- The two fields of a hand-off. -/
inductive HandoffField where
  | destination
  | kind
  deriving Repr, DecidableEq

/-- Why a query is no hand-off. -/
inductive HandoffFault where
  /-- A field that does not occur. -/
  | missingField (field : HandoffField)
  /-- A field that occurs twice. -/
  | duplicateField (field : HandoffField)
  /-- A field of another name. -/
  | unknownField (name : Text)
  /-- A pair without an equals sign. -/
  | malformedPair (pair : Text)
  /-- A destination that does not decode to UTF-8. -/
  | invalidEncoding
  /-- A kind that cannot be paid. -/
  | unknownKind (name : Text)
  deriving Repr, DecidableEq

def HandoffField.name : HandoffField → String
  | .destination => "destination"
  | .kind => "kind"

/-- The field with exactly this name. -/
def HandoffField.ofName? (name : String) : Option HandoffField :=
  [destination, kind].find? fun field => field.name == name

def HandoffFault.message : HandoffFault → String
  | .missingField field => "Missing field: " ++ field.name
  | .duplicateField field => "Duplicate field: " ++ field.name
  | .unknownField name => "Unknown field: " ++ String.ofList name
  | .malformedPair pair => "Malformed pair: " ++ String.ofList pair
  | .invalidEncoding => "Invalid percent-encoding in destination"
  | .unknownKind name => "Unknown destination kind: " ++ String.ofList name

namespace Handoff

/-- A name and a value joined by an equals sign. -/
def pair (field : HandoffField) (value : Text) : Text :=
  field.name.toList ++ '=' :: value

/-- The hand-off as a query. -/
def toQuery (h : Handoff) : Text :=
  pair .destination (Percent.encode h.destination) ++ '&' :: pair .kind h.kind.name.toList

/-- What the pairs of a query have said so far. -/
structure Known where
  destination : Option Text := none
  kind : Option PayableKind := none
  deriving Repr, DecidableEq

/-- What is known after one more pair. -/
def Known.add (k : Known) (pair : Text) : Except HandoffFault Known :=
  match pair.splitFirst? '=' with
  | none => .error (.malformedPair pair)
  | some (name, value) =>
      match HandoffField.ofName? (String.ofList name) with
      | none => .error (.unknownField name)
      | some .destination =>
          if k.destination.isSome then .error (.duplicateField .destination)
          else
            match Percent.decode? value with
            | none => .error .invalidEncoding
            | some destination => .ok { k with destination := some destination }
      | some .kind =>
          if k.kind.isSome then .error (.duplicateField .kind)
          else
            match PayableKind.ofName? (String.ofList value) with
            | none => .error (.unknownKind value)
            | some kind => .ok { k with kind := some kind }

/-- The hand-off, once both fields are known. -/
def Known.finish (k : Known) : Except HandoffFault Handoff :=
  match k.destination, k.kind with
  | none, _ => .error (.missingField .destination)
  | some _, none => .error (.missingField .kind)
  | some destination, some kind => .ok { destination, kind }

/-- The pairs of a query: what stands between ampersands, unless it is empty. -/
def pairs (query : Text) : List Text :=
  (query.splitOn '&').filter fun pair => !pair.isEmpty

/-- Reads a query. -/
def ofQuery (query : Text) : Except HandoffFault Handoff :=
  match (pairs query).foldlM Known.add {} with
  | .error fault => .error fault
  | .ok known => known.finish

end Handoff

end PaymentTarget
