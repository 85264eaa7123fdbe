import PaymentTarget.Destination

/-! # Payable kinds

The kinds of destination a send can go on with. Each is a kind of destination
and has its name.
-/

namespace PaymentTarget

/-- A kind of destination that can be paid. -/
inductive PayableKind where
  | onChainAddress
  | nodePublicKey
  deriving Repr, DecidableEq

namespace PayableKind

def toKind : PayableKind → DestinationKind
  | .onChainAddress => .onChainAddress
  | .nodePublicKey => .nodePublicKey

/-- The kind of destination as a payable kind, if it can be paid. -/
def ofKind? : DestinationKind → Option PayableKind
  | .onChainAddress => some .onChainAddress
  | .nodePublicKey => some .nodePublicKey
  | .invoice | .unknown => none

def name (k : PayableKind) : String :=
  k.toKind.name

/-- The payable kind with exactly this name. -/
def ofName? (name : String) : Option PayableKind :=
  [onChainAddress, nodePublicKey].find? fun kind => kind.name == name

/-- The payable kinds are the kinds of destination that can be paid. -/
theorem ofKind?_eq_some_iff {d : DestinationKind} {k : PayableKind} :
    ofKind? d = some k ↔ d = k.toKind := by
  cases d <;> cases k <;> decide

end PayableKind

end PaymentTarget
