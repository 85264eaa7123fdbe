import PaymentTarget.Destination
import PaymentTarget.Settings

/-! # Classifying a text

The schemes that the settings allow are tried one after the other, and the
first that reads the text, as a destination on an accepted network, settles
what it is. The search keeps why each scheme before it refused. When no scheme
is left, a destination that was refused for its network is the better
explanation, and the first of those is given.
-/

namespace PaymentTarget

/-- A scheme that did not match, and why. -/
structure Refusal where
  /-- The scheme that was tried. -/
  scheme : Scheme
  /-- Why it refused. -/
  failure : Failure
  deriving Repr, DecidableEq

/-- A scheme that matched, and what it read. -/
structure Match where
  /-- The scheme that was tried. -/
  scheme : Scheme
  /-- What it read. -/
  destination : Destination
  deriving Repr, DecidableEq

/-- The course of a search through the schemes. -/
structure Search where
  /-- The schemes that refused, in the order they were tried. -/
  refusals : List Refusal
  /-- The scheme that matched and ended the search. -/
  found : Option Match
  deriving Repr, DecidableEq

/-- Whether a failure is about the network alone. -/
def Failure.isWrongNetwork : Failure → Bool
  | .wrongNetwork _ _ => true
  | _ => false

/-- What a search has found out. -/
def Search.outcome (s : Search) : Except Failure Match :=
  match s.found with
  | some found => .ok found
  | none =>
      match s.refusals.find? fun refusal => refusal.failure.isWrongNetwork with
      | some refusal => .error refusal.failure
      | none => .error .unrecognized

namespace Settings

/-- Whether a scheme is tried. -/
def isEnabled (s : Settings) (scheme : Scheme) : Bool :=
  if scheme.isUri then s.allowUriSchemes
  else if scheme = .connectionString then s.allowConnectionStrings
  else true

/-- Refuses a destination that is bound to a network and cannot be paid from
    the accepted one. -/
def checkNetwork (s : Settings) (d : Destination) : Except Failure Destination :=
  match s.network, d.network with
  | some expected, some found =>
      if d.isValidFor expected then .ok d else .error (.wrongNetwork expected found)
  | _, _ => .ok d

/-- Tries one scheme. -/
def attempt (s : Settings) (scheme : Scheme) (t : Text) : Except Failure Destination :=
  match scheme.read t with
  | .error failure => .error failure
  | .ok destination => s.checkNetwork destination

/-- Tries schemes one after the other, those that are allowed. -/
def search (s : Settings) (t : Text) : List Scheme → Search
  | [] => { refusals := [], found := none }
  | scheme :: rest =>
      if s.isEnabled scheme then
        match s.attempt scheme t with
        | .ok destination => { refusals := [], found := some { scheme, destination } }
        | .error failure =>
            let later := search s t rest
            { later with refusals := { scheme, failure } :: later.refusals }
      else search s t rest

/-- Why a text is refused before any scheme is tried. -/
def sizeFailure? (t : Text) : Option Failure :=
  if t.isEmpty then some .empty
  else if Text.maxSize < t.size then some (.tooLong t.size)
  else none

/-- What a text is, when the schemes are tried in this order. -/
def resolveIn (order : List Scheme) (s : Settings) (t : Text) : Except Failure Match :=
  match sizeFailure? t with
  | some failure => .error failure
  | none => (s.search t order).outcome

def resolve (s : Settings) (t : Text) : Except Failure Match :=
  s.resolveIn Scheme.order t

/-- The schemes that were tried on a text and refused it. -/
def refusals (s : Settings) (t : Text) : List Refusal :=
  match sizeFailure? t with
  | some _ => []
  | none => (s.search t Scheme.order).refusals

/-- Reads a destination with its details. -/
def parse (s : Settings) (t : Text) : Except Failure Destination :=
  (s.resolve t).map Match.destination

/-- The scheme that reads the text. -/
def matchedScheme? (s : Settings) (t : Text) : Option Scheme :=
  (s.resolve t).toOption.map Match.scheme

def classify (s : Settings) (t : Text) : DestinationKind :=
  match s.resolve t with
  | .ok found => found.scheme.kind
  | .error _ => .unknown

end Settings

end PaymentTarget
