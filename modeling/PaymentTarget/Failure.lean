import PaymentTarget.Network
import PaymentTarget.Bech32.Alphabet
import PaymentTarget.Text.Hex
import PaymentTarget.Text.Quoted

/-! # Why a text is refused

Every reader of a destination fails with a cause, and each cause has one
message. The causes are grouped by what was being read when they arose.
-/

namespace PaymentTarget

/-- What is wrong with an on-chain address. -/
inductive AddressFault where
  /-- More bytes than a segwit address can have. -/
  | segwitTooLong
  /-- A program of version 0 that is neither a key hash nor a script hash. -/
  | witnessLength (length : Nat)
  /-- A number of bytes that no Base58 address has. -/
  | base58Size (size : Nat)
  /-- A character that is no base-58 digit. -/
  | base58Character
  /-- A payload that is no version byte with a hash. -/
  | payloadLength (length : Nat)
  /-- A version byte without a meaning. -/
  | versionByte (byte : UInt8)
  /-- A URI that is no `bitcoin:` URI. -/
  | missingScheme
  deriving Repr, DecidableEq

/-- What is wrong with a Bech32 word. -/
inductive Bech32Fault where
  /-- It is no word: a bad character, mixed case, no separator, or a bad
      human-readable part. -/
  | malformed
  /-- Its checksum is missing or wrong, or covers too long a text. -/
  | checksum
  /-- It carries no segwit program. -/
  | noProgram
  deriving Repr, DecidableEq

/-- What is wrong with a node key. -/
inductive NodeKeyFault where
  /-- It has not 66 digits. -/
  | size (size : Nat)
  /-- Its first byte is not that of a compressed point. -/
  | leadByte (byte : UInt8)
  /-- No point of the curve has its abscissa. -/
  | notOnCurve
  deriving Repr, DecidableEq

/-- What is wrong with a connection string. -/
inductive ConnectionFault where
  /-- There is no `@`. -/
  | missingAt
  /-- There is no host. -/
  | emptyHost
  /-- A character that no host has. -/
  | hostCharacter
  /-- A bracket that is not closed. -/
  | openBracket
  /-- Something other than a port behind the closing bracket. -/
  | afterBracket
  /-- A host with a colon and without brackets. -/
  | missingBrackets
  /-- A port that is no number from 1 to 65535. -/
  | port (port : Text)
  deriving Repr, DecidableEq

/-- What is wrong with the amount of an invoice. -/
inductive AmountFault where
  /-- It is no digits with an optional multiplier. -/
  | malformed
  /-- It starts with a zero. -/
  | leadingZero
  /-- It does not fit in 64 bits. -/
  | overflow
  /-- It is no whole number of millisatoshis. -/
  | fractional
  deriving Repr, DecidableEq

/-- What is wrong with an invoice. -/
inductive InvoiceFault where
  /-- It does not start with `ln`. -/
  | missingStart
  /-- It has fewer symbols than timestamp and signature need. -/
  | tooShort (symbols : Nat)
  /-- The last byte of the signature is no recovery id. -/
  | recoveryId
  /-- Fewer symbols are left than a field header has. -/
  | truncatedField
  /-- A field that states more symbols than are left. -/
  | overrun (tag : Symbol)
  /-- A description that is not UTF-8. -/
  | description
  /-- There is no payment hash. -/
  | missingPaymentHash
  /-- A URI that is no `lightning:` URI. -/
  | missingScheme
  deriving Repr, DecidableEq

/-- Why a text is not read as a destination. -/
inductive Failure where
  /-- There is nothing to read. -/
  | empty
  /-- There are more bytes than are ever looked at. -/
  | tooLong (size : Nat)
  /-- A fault of an on-chain address. -/
  | address (fault : AddressFault)
  /-- A human-readable part of no known network. -/
  | unknownHrp (hrp : Text)
  | nodeKey (fault : NodeKeyFault)
  /-- A fault of a connection string. -/
  | connection (fault : ConnectionFault)
  | invoice (fault : InvoiceFault)
  /-- A fault of the amount that is written as `amount`. -/
  | amount (fault : AmountFault) (amount : Text)
  /-- A fault of a Bech32 word. -/
  | bech32 (fault : Bech32Fault)
  /-- A Base58Check checksum other than the one its payload has. -/
  | base58Checksum (calculated found : List UInt8)
  /-- A fault of hexadecimal digits. -/
  | hex (fault : Hex.Fault)
  /-- A destination on a network that is not accepted. -/
  | wrongNetwork (expected found : Network)
  /-- A text in none of the accepted forms. -/
  | unrecognized
  deriving Repr, DecidableEq

/-- A byte as two hexadecimal digits behind `0x`. -/
def byteText (byte : UInt8) : String :=
  "0x" ++ String.ofList (Hex.digits byte)

/-- Bytes as decimal numbers in brackets. -/
def byteListText (bytes : List UInt8) : String :=
  "[" ++ ", ".intercalate (bytes.map fun byte => toString byte.toNat) ++ "]"

def AddressFault.message : AddressFault → String
  | .segwitTooLong => "segwit address longer than 90 characters"
  | .witnessLength n => s!"invalid v0 witness program length {n}"
  | .base58Size n => s!"base58 address must be 26-35 characters, got {n}"
  | .base58Character => "character outside the base58 alphabet"
  | .payloadLength n => s!"expected 21 byte payload, got {n}"
  | .versionByte b => "unknown version byte " ++ byteText b
  | .missingScheme => "missing bitcoin: scheme"

/-- The message of a fault of a Bech32 word. -/
def Bech32Fault.message : Bech32Fault → String
  | .malformed => "parse failed"
  | .checksum => "invalid checksum"
  | .noProgram => "decoding segwit address failed"

def NodeKeyFault.message : NodeKeyFault → String
  | .size n => s!"expected 66 hex characters, got {n}"
  | .leadByte b => "compressed key must start with 0x02 or 0x03, got " ++ byteText b
  | .notOnCurve => "not a point on secp256k1"

def ConnectionFault.message : ConnectionFault → String
  | .missingAt => "missing '@'"
  | .emptyHost => "empty host"
  | .hostCharacter => "host contains an invalid character"
  | .openBracket => "unterminated IPv6 host"
  | .afterBracket => "expected ':' after IPv6 host"
  | .missingBrackets => "IPv6 hosts must be bracketed"
  | .port p => "invalid port: " ++ String.ofList p

/-- The message of a fault of an amount, in front of the amount itself. -/
def AmountFault.message : AmountFault → String
  | .malformed => ""
  | .leadingZero => "leading zero: "
  | .overflow => "overflow: "
  | .fractional => "sub-millisatoshi amount: "

def InvoiceFault.message : InvoiceFault → String
  | .missingStart => "missing 'ln' prefix"
  | .tooShort n => s!"data part too short: {n} characters"
  | .recoveryId => "signature recovery id out of range"
  | .truncatedField => "truncated tagged field"
  | .overrun tag => "field '" ++ String.ofList [tag.toChar] ++ "' overruns the data part"
  | .description => "description is not valid UTF-8"
  | .missingPaymentHash => "missing payment hash"
  | .missingScheme => "missing lightning: scheme"

/-- The message of a fault of hexadecimal digits. -/
def Hex.Fault.message : Hex.Fault → String
  | .digit byte position =>
      "Invalid character " ++ String.ofList (Text.quoteByte byte) ++ s!" at position {position}"
  | .oddLength => "Odd number of digits"

/-- What a payer is told about a failure. -/
def Failure.message : Failure → String
  | .empty => "Empty input"
  | .tooLong n => s!"Input too long: {n} bytes"
  | .address f => "Invalid address: " ++ f.message
  | .unknownHrp hrp => "Unknown human-readable part: " ++ String.ofList hrp
  | .nodeKey f => "Invalid node public key: " ++ f.message
  | .connection f => "Invalid connection string: " ++ f.message
  | .invoice f => "Invalid invoice: " ++ f.message
  | .amount f written => "Invalid amount: " ++ f.message ++ String.ofList written
  | .bech32 f => "Bech32 error: " ++ f.message
  | .base58Checksum calculated found =>
      "Base58 error: invalid checksum, calculated checksum: '" ++ byteListText calculated
        ++ "', expected checksum: " ++ byteListText found
  | .hex f => "Hex error: " ++ f.message
  | .wrongNetwork expected found =>
      "Destination is for " ++ found.name ++ ", expected " ++ expected.name
  | .unrecognized => "Unrecognized destination"

end PaymentTarget
