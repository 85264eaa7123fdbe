import PaymentTarget.Send.Intent

/-! # The trace of a decision

A decision can be followed in a log: one event for each scheme that refused the
text, in the order they were tried, and one for the outcome.
-/

namespace PaymentTarget

/-- An event of the log. -/
inductive Event where
  /-- A scheme did not match. -/
  | refused (refusal : Refusal)
  /-- The outcome of the decision. -/
  | decided (intent : Intent)
  deriving Repr, DecidableEq

namespace Event

/-- How much detail a reader of the log has to ask for to see the event. -/
def level : Event → String
  | .refused _ => "TRACE"
  | .decided _ => "DEBUG"

/-- The message of an event. A refusal for the network alone has its own. -/
def message : Event → String
  | .refused refusal =>
      if refusal.failure.isWrongNetwork then "destination on another network"
      else "scheme did not match"
  | .decided (.proceed _ _) => "send destination accepted"
  | .decided (.reject _) => "send destination rejected"

/-- The other fields of an event. -/
def fields : Event → List (String × String)
  | .refused refusal => [("scheme", refusal.scheme.name), ("error", refusal.failure.message)]
  | .decided (.proceed _ kind) => [("outcome", "proceed"), ("kind", kind.name)]
  | .decided (.reject reason) => [("outcome", "reject"), ("reason", reason.code)]

end Event

/-- The events of one decision. -/
def Settings.trace (s : Settings) (t : Text) : List Event :=
  (s.refusals t).map .refused ++ [.decided (s.decide t)]

end PaymentTarget
