import PaymentTarget.Node.Key

/-! # Connection strings

A node key, `@`, and where the node can be reached: a host with an optional
port. A host that contains colons stands in brackets. The part behind the `@`
is checked and kept as it was written.
-/

namespace PaymentTarget

/-- A node to pay, with the place it can be reached at if that is known. -/
structure NodeTarget where
  key : NodeKey
  /-- Host and port, as written. -/
  socket : Option Text
  deriving Repr, DecidableEq

namespace Socket

/-- Characters that neither a host nor a port has. -/
def isForbidden (c : Char) : Bool :=
  isBlank c || isControl c || c == '@' || c == '/'

/-- Whether a text is a number from 1 to 65535. One plus sign may stand in
    front, and any number of zeros. -/
def isPort (t : Text) : Bool :=
  let digits := if t.head? = some '+' then t.tail else t
  let value := Radix.value 10 (digits.map fun c => c.toNat - '0'.toNat)
  !digits.isEmpty && digits.all Char.isDigit && 0 < value && value < Nat.pow 2 16

/-- The host of a socket, and the port if there is one. A bracketed host ends
    at the first closing bracket, another one at the last colon. -/
def split (t : Text) : Except ConnectionFault (Text × Option Text) :=
  match t with
  | '[' :: rest =>
      match Text.splitFirst? ']' rest with
      | none => .error .openBracket
      | some (host, []) => .ok (host, none)
      | some (host, ':' :: port) => .ok (host, some port)
      | some _ => .error .afterBracket
  | _ =>
      match t.splitLast? ':' with
      | none => .ok (t, none)
      | some (host, port) => .ok (host, some port)

/-- The first fault of a host and a port; `bracketed` says whether the host
    stood in brackets. -/
def partsFault? (bracketed : Bool) (host : Text) (port : Option Text) : Option ConnectionFault :=
  if host.isEmpty then some .emptyHost
  else if !bracketed && host.contains ':' then some .missingBrackets
  else
    match port with
    | none => none
    | some port => if isPort port then none else some (.port port)

/-- The first fault of a socket. -/
def fault? (t : Text) : Option ConnectionFault :=
  if t.isEmpty then some .emptyHost
  else if t.any isForbidden then some .hostCharacter
  else
    match split t with
    | .error fault => some fault
    | .ok (host, port) => partsFault? (t.head? == some '[') host port

end Socket

namespace NodeTarget

/-- Reads a connection string. -/
def read (t : Text) : Except Failure NodeTarget :=
  match t.splitFirst? '@' with
  | none => .error (.connection .missingAt)
  | some (key, socket) =>
      match NodeKey.read key with
      | .error failure => .error failure
      | .ok key =>
          match Socket.fault? socket with
          | some fault => .error (.connection fault)
          | none => .ok { key, socket := some socket }

end NodeTarget

end PaymentTarget
