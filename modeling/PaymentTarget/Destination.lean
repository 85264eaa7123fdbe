import PaymentTarget.Node.Target
import PaymentTarget.Uri

/-! # Destinations

A destination is an address, a node, or an invoice. It is written in one of
seven schemes, each of which stands for one kind of destination.
-/

namespace PaymentTarget

/-- What kind of payment target a text is. -/
inductive DestinationKind where
  | onChainAddress
  | nodePublicKey
  | invoice
  /-- Nothing that is recognised. -/
  | unknown
  deriving Repr, DecidableEq

namespace DestinationKind

def all : List DestinationKind :=
  [.onChainAddress, .nodePublicKey, .invoice, .unknown]

def name : DestinationKind → String
  | .onChainAddress => "on_chain_address"
  | .nodePublicKey => "node_public_key"
  | .invoice => "invoice"
  | .unknown => "unknown"

/-- The kind with exactly this name. -/
def ofName? (name : String) : Option DestinationKind :=
  all.find? fun kind => kind.name == name

end DestinationKind

/-- A form in which a destination is written. -/
inductive Scheme where
  /-- Sixty-six hexadecimal digits. -/
  | nodePublicKey
  /-- A node key with host and port. -/
  | connectionString
  /-- An address in Bech32 or Bech32m. -/
  | segwitAddress
  /-- An address in Base58Check. -/
  | base58Address
  /-- An address in a `bitcoin:` URI. -/
  | bitcoinUri
  /-- An invoice by itself. -/
  | invoice
  /-- An invoice in a `lightning:` URI. -/
  | lightningUri
  deriving Repr, DecidableEq

/-- What a text refers to, with all its details. -/
inductive Destination where
  | onChain (address : Address)
  | node (target : NodeTarget)
  | invoice (invoice : Invoice)
  deriving Repr, DecidableEq

namespace Destination

def kind : Destination → DestinationKind
  | .onChain _ => .onChainAddress
  | .node _ => .nodePublicKey
  | .invoice _ => .invoice

/-- The network a destination is bound to. Nodes are bound to none. -/
def network : Destination → Option Network
  | .onChain address => some address.network
  | .node _ => none
  | .invoice i => some i.network

/-- Whether a wallet on `network` can pay to the destination. -/
def isValidFor (d : Destination) (network : Network) : Bool :=
  match d with
  | .onChain address => address.isValidFor network
  | .node _ => true
  | .invoice i => i.isValidFor network

/-- The networks from which the destination can be paid. -/
def payableOn (d : Destination) : List Network :=
  Network.all.filter d.isValidFor

end Destination

namespace Scheme

/-- The schemes in the order in which they are tried. -/
def order : List Scheme :=
  [.nodePublicKey, .connectionString, .segwitAddress, .base58Address, .bitcoinUri, .invoice,
    .lightningUri]

def name : Scheme → String
  | .nodePublicKey => "node_public_key"
  | .connectionString => "connection_string"
  | .segwitAddress => "segwit_address"
  | .base58Address => "base58_address"
  | .bitcoinUri => "bitcoin_uri"
  | .invoice => "invoice"
  | .lightningUri => "lightning_uri"

/-- The scheme with exactly this name. -/
def ofName? (name : String) : Option Scheme :=
  order.find? fun scheme => scheme.name == name

/-- The kind of destination a scheme writes. -/
def kind : Scheme → DestinationKind
  | .nodePublicKey | .connectionString => .nodePublicKey
  | .segwitAddress | .base58Address | .bitcoinUri => .onChainAddress
  | .invoice | .lightningUri => .invoice

/-- Whether a scheme is a URI. -/
def isUri : Scheme → Bool
  | .bitcoinUri | .lightningUri => true
  | _ => false

def read (scheme : Scheme) (t : Text) : Except Failure Destination :=
  match scheme with
  | .nodePublicKey => (NodeKey.read t).map fun key => .node { key, socket := none }
  | .connectionString => (NodeTarget.read t).map .node
  | .segwitAddress => (Address.readSegwit t).map .onChain
  | .base58Address => (Address.readBase58 t).map .onChain
  | .bitcoinUri => (Address.readUri t).map .onChain
  | .invoice => (Invoice.read t).map .invoice
  | .lightningUri => (Invoice.readUri t).map .invoice

end Scheme

end PaymentTarget
