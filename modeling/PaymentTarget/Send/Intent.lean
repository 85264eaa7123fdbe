import PaymentTarget.Classifier
import PaymentTarget.Send.Handoff
import PaymentTarget.Send.Reason

/-! # Send intents

Whether a send goes on with an entered text. Addresses and nodes can be paid,
invoices cannot yet, and what is no destination is rejected. The text is not
trimmed: blanks alone are a text that is no destination.
-/

namespace PaymentTarget

/-- What the send does with an entered text. -/
inductive Intent where
  /-- It goes on to amount entry with exactly this text. -/
  | proceed (destination : Text) (kind : PayableKind)
  /-- It stops, and says why. -/
  | reject (reason : Reason)
  deriving Repr, DecidableEq

namespace Intent

/-- Whether the send goes on. -/
def isProceed : Intent → Bool
  | .proceed _ _ => true
  | .reject _ => false

/-- Why the send stops, if it does. -/
def rejection? : Intent → Option Reason
  | .proceed _ _ => none
  | .reject reason => some reason

/-- What amount entry is told, if the send goes on. -/
def handoff? : Intent → Option Handoff
  | .proceed destination kind => some { destination, kind }
  | .reject _ => none

/-- The name under which an outcome is counted. -/
def label : Intent → String
  | .proceed _ kind => kind.name
  | .reject reason => reason.code

end Intent

/-- Decides whether a send can go on with a text. -/
def Settings.decide (s : Settings) (t : Text) : Intent :=
  if t.isEmpty then .reject .emptyInput
  else
    match s.classify t with
    | .onChainAddress => .proceed t .onChainAddress
    | .nodePublicKey => .proceed t .nodePublicKey
    | .invoice => .reject .unsupportedInvoice
    | .unknown => .reject .unparseableDestination

end PaymentTarget
