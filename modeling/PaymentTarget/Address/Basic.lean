import PaymentTarget.Network

/-! # On-chain addresses

What an address says about the script it pays to, and from which networks it
can be paid. Test networks share encodings: Base58 addresses look the same on
all three of them, segwit addresses on the testnet and on signet. An address
of a shared encoding is recorded as one of the testnet.
-/

namespace PaymentTarget

/-- The kind of output script an address pays to. -/
inductive AddressKind where
  /-- A hash of a public key. -/
  | p2pkh
  /-- A hash of a script. -/
  | p2sh
  /-- A hash of a public key, as a segwit program of version 0. -/
  | p2wpkh
  /-- A hash of a script, as a segwit program of version 0. -/
  | p2wsh
  /-- A taproot key, as a segwit program of version 1. -/
  | p2tr
  /-- A segwit program that has no meaning yet. -/
  | witnessUnknown (version : UInt8)
  deriving Repr, DecidableEq

/-- Whether addresses of this kind are written in Base58. -/
def AddressKind.isBase58 : AddressKind → Bool
  | .p2pkh | .p2sh => true
  | _ => false

/-- A valid on-chain address. -/
structure Address where
  /-- The network of the encoding. -/
  network : Network
  /-- The script paid to. -/
  kind : AddressKind
  deriving Repr, DecidableEq

/-- Whether a wallet on `network` can pay to the address. -/
def Address.isValidFor (a : Address) (network : Network) : Bool :=
  match a.network, network with
  | .bitcoin, .bitcoin | .regtest, .regtest => true
  | .testnet, .testnet | .testnet, .signet | .signet, .testnet | .signet, .signet => true
  | .testnet, .regtest | .signet, .regtest => a.kind.isBase58
  | _, _ => false

end PaymentTarget
