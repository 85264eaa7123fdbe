/-! # Reasons for a rejection

Why a send does not go on. A reason is known by its code; the message is only
what a payer is shown by default.
-/

namespace PaymentTarget

/-- Why a send was rejected. -/
inductive Reason where
  /-- Nothing was entered. -/
  | emptyInput
  /-- An invoice, which cannot be paid yet. -/
  | unsupportedInvoice
  /-- A text that is no destination. -/
  | unparseableDestination
  deriving Repr, DecidableEq

namespace Reason

def all : List Reason :=
  [.emptyInput, .unsupportedInvoice, .unparseableDestination]

/-- The lasting identifier of a reason. -/
def code : Reason → String
  | .emptyInput => "empty_input"
  | .unsupportedInvoice => "unsupported_invoice"
  | .unparseableDestination => "unparseable_destination"

/-- What a payer is told. -/
def message : Reason → String
  | .emptyInput => "Enter a destination to send to."
  | .unsupportedInvoice => "Paying Lightning invoices is not supported yet."
  | .unparseableDestination => "That doesn't look like an address or node key we can send to."

/-- The reason with exactly this code. -/
def ofCode? (code : String) : Option Reason :=
  all.find? fun reason => reason.code == code

/-- A reason is found again by its code. -/
theorem ofCode?_code (r : Reason) : ofCode? r.code = some r := by
  cases r <;> decide

end Reason

end PaymentTarget
