import PaymentTarget.Text.Blank

/-! # Networks

The networks a destination can belong to, their names, and the two short codes
by which addresses and invoices say which network they are for. Signet has no
segwit code of its own: it shares that of the testnet.
-/

namespace PaymentTarget

/-- A network of nodes that share one ledger. -/
inductive Network where
  /-- The main network. -/
  | bitcoin
  /-- The public test network. -/
  | testnet
  /-- The test network with signed blocks. -/
  | signet
  /-- A local network for regression tests. -/
  | regtest
  deriving Repr, DecidableEq

instance : Inhabited Network := ⟨.bitcoin⟩

namespace Network

/-- Every network, the main one first. -/
def all : List Network :=
  [.bitcoin, .testnet, .signet, .regtest]

def name : Network → String
  | .bitcoin => "bitcoin"
  | .testnet => "testnet"
  | .signet => "signet"
  | .regtest => "regtest"

/-- The human-readable part of segwit addresses. -/
def segwitHrp : Network → Text
  | .bitcoin => ['b', 'c']
  | .testnet | .signet => ['t', 'b']
  | .regtest => ['b', 'c', 'r', 't']

/-- What follows `ln` in the human-readable part of invoices. -/
def currency : Network → Text
  | .bitcoin => ['b', 'c']
  | .testnet => ['t', 'b']
  | .signet => ['t', 'b', 's']
  | .regtest => ['b', 'c', 'r', 't']

/-- The network with exactly this name. -/
def ofName? (name : String) : Option Network :=
  all.find? fun network => network.name == name

/-- The network a person means by a text: its name or a short form of it, in
    any case, with blanks around it. The words are ASCII, and no other letter
    has one of theirs as its small form. -/
def ofWord? (t : Text) : Option Network :=
  match String.ofList t.trim.lower with
  | "bitcoin" | "mainnet" | "main" => some .bitcoin
  | "testnet" | "test" => some .testnet
  | "signet" => some .signet
  | "regtest" => some .regtest
  | _ => none

/-- The network with this invoice currency. -/
def ofCurrency? (currency : Text) : Option Network :=
  all.find? fun network => network.currency == currency

/-- No two networks share a currency. -/
theorem ofCurrency?_currency (n : Network) : ofCurrency? n.currency = some n := by
  cases n <;> decide

end Network

end PaymentTarget
