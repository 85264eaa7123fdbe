import PaymentTarget.Address.Segwit
import PaymentTarget.Base58

/-! # Base58 addresses

A version byte and a hash of twenty bytes, in Base58Check. The version byte
says whether the hash is one of a key or of a script, and whether the address
is for the main network or for the test networks.
-/

namespace PaymentTarget

/-- The fewest and the most characters of a Base58 address. -/
def base58Sizes : Nat × Nat := (26, 35)

/-- Number of bytes in the payload: the version and the hash. -/
def base58PayloadLength : Nat := 21

/-- The network and the kind that a version byte stands for. -/
def Address.ofVersionByte? (byte : UInt8) : Option Address :=
  match byte with
  | 0x00 => some ⟨.bitcoin, .p2pkh⟩
  | 0x05 => some ⟨.bitcoin, .p2sh⟩
  | 0x6f => some ⟨.testnet, .p2pkh⟩
  | 0xc4 => some ⟨.testnet, .p2sh⟩
  | _ => none

/-- The address of a Base58Check payload. -/
def Address.ofPayload (payload : List UInt8) : Except Failure Address :=
  if payload.length ≠ base58PayloadLength then
    .error (.address (.payloadLength payload.length))
  else
    match Address.ofVersionByte? (payload.headD 0) with
    | none => .error (.address (.versionByte (payload.headD 0)))
    | some address => .ok address

def Address.readBase58 (t : Text) : Except Failure Address :=
  if t.size < base58Sizes.1 ∨ base58Sizes.2 < t.size then
    .error (.address (.base58Size t.size))
  else
    match Base58.decode? t with
    | none => .error (.address .base58Character)
    | some bytes =>
        let payload := bytes.take (bytes.length - Base58.checksumLength)
        let found := bytes.drop (bytes.length - Base58.checksumLength)
        let calculated := Base58.checksum payload
        if calculated ≠ found then .error (.base58Checksum calculated found)
        else Address.ofPayload payload

/-- Reads an address in either encoding. A text that holds no `1`, or starts
    with one, is no segwit address and is read as Base58 only; what is refused
    is refused with the reason of the Base58 reading. -/
def Address.read (t : Text) : Except Failure Address :=
  if t.isEmpty then .error .empty
  else if t.contains '1' && t.head? != some '1' then
    match Address.readSegwit t with
    | .ok address => .ok address
    | .error _ => Address.readBase58 t
  else Address.readBase58 t

end PaymentTarget
