import PaymentTarget.Json.Basic
import PaymentTarget.Send.Intent

/-! # Destinations in JSON

How the values of this library are written as JSON, and how those that are
stored are read back. Names are matched exactly. A value that is read back is
the one that was written.
-/

namespace PaymentTarget

/-- A network, by its name. -/
def Network.toJson (n : Network) : Json :=
  .ofString n.name

/-- Reads a network. -/
def Network.ofJson? (j : Json) : Option Network :=
  j.word?.bind Network.ofName?

/-- A kind of destination, by its name. -/
def DestinationKind.toJson (k : DestinationKind) : Json :=
  .ofString k.name

/-- Reads a kind of destination. -/
def DestinationKind.ofJson? (j : Json) : Option DestinationKind :=
  j.word?.bind DestinationKind.ofName?

/-- A scheme, by its name. -/
def Scheme.toJson (s : Scheme) : Json :=
  .ofString s.name

/-- Reads a scheme. -/
def Scheme.ofJson? (j : Json) : Option Scheme :=
  j.word?.bind Scheme.ofName?

/-- A payable kind, by its name. -/
def PayableKind.toJson (k : PayableKind) : Json :=
  .ofString k.name

/-- Reads a payable kind. -/
def PayableKind.ofJson? (j : Json) : Option PayableKind :=
  j.word?.bind PayableKind.ofName?

/-- A reason, by its code. -/
def Reason.toJson (r : Reason) : Json :=
  .ofString r.code

/-- Reads a reason. -/
def Reason.ofJson? (j : Json) : Option Reason :=
  j.word?.bind Reason.ofCode?

namespace AddressKind

def name : AddressKind → String
  | .p2pkh => "p2pkh"
  | .p2sh => "p2sh"
  | .p2wpkh => "p2wpkh"
  | .p2wsh => "p2wsh"
  | .p2tr => "p2tr"
  | .witnessUnknown _ => "witness_unknown"

/-- The kind of address with this name, when the version is what `version?`
    says. -/
def ofName? (name : String) (version? : Option UInt8) : Option AddressKind :=
  match name with
  | "p2pkh" => some .p2pkh
  | "p2sh" => some .p2sh
  | "p2wpkh" => some .p2wpkh
  | "p2wsh" => some .p2wsh
  | "p2tr" => some .p2tr
  | "witness_unknown" => version?.map .witnessUnknown
  | _ => none

/-- A kind of address, as an object with its name and its version. -/
def toJson (k : AddressKind) : Json :=
  .object (("type", .ofString k.name) ::
    match k with
    | .witnessUnknown version => [("version", .ofNat version.toNat)]
    | _ => [])

/-- Reads a kind of address: an object, or an array of the name and, where the
    kind has one, the version. -/
def ofJson? : Json → Option AddressKind
  | .object members => do
      let name ← (Json.member? "type" members).bind Json.text?
      ofName? (String.ofList name) ((Json.member? "version" members).bind Json.byte?)
  | .array [.string name] => ofName? (String.ofList name) none
  | .array [.string name, version] =>
      if String.ofList name = "witness_unknown" then ofName? "witness_unknown" version.byte?
      else none
  | _ => none

end AddressKind

def Address.members (a : Address) : List (String × Json) :=
  [("network", a.network.toJson), ("address_type", a.kind.toJson)]

def Address.toJson (a : Address) : Json :=
  .object a.members

/-- Reads an address. -/
def Address.ofJson? (j : Json) : Option Address :=
  match j.record? ["network", "address_type"] with
  | some [some network, some kind] => do
      some { network := ← Network.ofJson? network, kind := ← AddressKind.ofJson? kind }
  | _ => none

/-- The members of a node to pay. -/
def NodeTarget.members (t : NodeTarget) : List (String × Json) :=
  [("node_id", .string t.key.toHex), ("socket_addr", .ofOption .string t.socket)]

/-- A node to pay. -/
def NodeTarget.toJson (t : NodeTarget) : Json :=
  .object t.members

def Invoice.members (i : Invoice) : List (String × Json) :=
  [("network", i.network.toJson),
    ("amount_msat", .ofOption .ofNat i.amountMsat),
    ("timestamp", .ofNat i.timestamp),
    ("payment_hash", .string (Hex.encode i.paymentHash)),
    ("description", .ofOption .string i.description),
    ("expiry_secs", .ofNat i.expirySecs),
    ("payee", .ofOption (fun key => .string key.toHex) i.payee)]

def Invoice.toJson (i : Invoice) : Json :=
  .object i.members

/-- A destination: its kind and its details in one object. -/
def Destination.toJson (d : Destination) : Json :=
  .object (("kind", d.kind.toJson) ::
    match d with
    | .onChain address => address.members
    | .node target => target.members
    | .invoice i => i.members)

def Settings.toJson (s : Settings) : Json :=
  .object [("network", .ofOption Network.toJson s.network),
    ("allow_uri_schemes", .bool s.allowUriSchemes),
    ("allow_connection_strings", .bool s.allowConnectionStrings)]

/-- Reads what may be `null`. -/
def Json.nullable? (read : Json → Option α) : Json → Option (Option α)
  | .null => some none
  | j => (read j).map some

/-- Reads what may be absent, and is a default then. -/
def Json.orDefault? (default : α) (read : Json → Option α) : Option Json → Option α
  | none => some default
  | some j => read j

/-- Reads settings; those that are absent keep their default. -/
def Settings.ofJson? (j : Json) : Option Settings :=
  match j.record? ["network", "allow_uri_schemes", "allow_connection_strings"] with
  | some [network, uriSchemes, connectionStrings] => do
      some {
        network := ← Json.orDefault? none (Json.nullable? Network.ofJson?) network
        allowUriSchemes := ← Json.orDefault? true Json.bool? uriSchemes
        allowConnectionStrings := ← Json.orDefault? true Json.bool? connectionStrings }
  | _ => none

/-- A hand-off. -/
def Handoff.toJson (h : Handoff) : Json :=
  .object [("destination", .string h.destination), ("kind", h.kind.toJson)]

/-- Reads a hand-off. -/
def Handoff.ofJson? (j : Json) : Option Handoff :=
  match j.record? ["destination", "kind"] with
  | some [some destination, some kind] => do
      some { destination := ← destination.text?, kind := ← PayableKind.ofJson? kind }
  | _ => none

def Intent.members : Intent → List (String × Json)
  | .proceed destination kind =>
      [("outcome", .ofString "proceed"), ("destination", .string destination),
        ("kind", kind.toJson)]
  | .reject reason => [("outcome", .ofString "reject"), ("reason", reason.toJson)]

def Intent.toJson (i : Intent) : Json :=
  .object i.members

end PaymentTarget
