import PaymentTarget.Address.Basic
import PaymentTarget.Bech32.Word
import PaymentTarget.Failure

/-! # Segwit addresses

A segwit program is a version and 2 to 40 bytes; of version 0 there are 20 or
32 bytes. Its text is a Bech32 word whose first symbol is the version and whose
other symbols carry the bytes. At most four bits are left over, and all of them
are zero, so that a program has one text in small letters. The human-readable
part names the network.
-/

namespace PaymentTarget

/-- A segwit program together with the human-readable part it is written with. -/
structure SegwitProgram where
  /-- The human-readable part, in small letters. -/
  hrp : Text
  /-- The witness version. -/
  version : Symbol
  /-- The program itself. -/
  program : List UInt8
  deriving Repr, DecidableEq

namespace SegwitProgram

/-- The checksum that goes with a witness version. -/
def variant (version : Symbol) : ChecksumVariant :=
  if version = 0#5 then .bech32 else .bech32m

/-- Whether programs of this version can have this many bytes. -/
def isLength (version : Symbol) (length : Nat) : Bool :=
  2 ≤ length && length ≤ 40 && (version != 0#5 || length == 20 || length == 32)

/-- Whether bits left over after the last byte are padding and nothing else. -/
def isPadding (bits : Bits) : Bool :=
  bits.length ≤ 4 && bits.all (! ·)

/-- The program that a Bech32 word carries. -/
def ofWord? (w : Word) : Option SegwitProgram :=
  match w.symbols with
  | [] => none
  | version :: _ =>
      let body := w.data.drop 1
      let program := bytesOfSymbols body
      if version.toNat ≤ 16 && w.checks (variant version)
          && isPadding (Bits.ofSymbols body).afterBytes && isLength version program.length then
        some { hrp := w.hrp, version, program }
      else none

/-- The program whose text is `t`, in small letters or in capitals. -/
def read? (t : Text) : Option SegwitProgram :=
  (Word.read? t).bind ofWord?

/-- The text of a program, in small letters. -/
def write (p : SegwitProgram) : Text :=
  (Word.withChecksum (variant p.version) p.hrp (p.version :: symbolsOfBytes p.program)).write

end SegwitProgram

/-- The most bytes a segwit address has. -/
def maxSegwitSize : Nat := 90

/-- The network of segwit addresses with this human-readable part. Signet
    addresses are recorded as addresses of the testnet. -/
def Network.ofSegwitHrp? (hrp : Text) : Option Network :=
  [bitcoin, testnet, regtest].find? fun network => network.segwitHrp == hrp

/-- What a segwit program of this version and length pays to. -/
def AddressKind.ofWitness? (version : Symbol) (length : Nat) : Option AddressKind :=
  if version = 0#5 then
    if length = 20 then some .p2wpkh else if length = 32 then some .p2wsh else none
  else if version = 1#5 ∧ length = 32 then some .p2tr
  else some (.witnessUnknown (UInt8.ofNat version.toNat))

def Address.readSegwit (t : Text) : Except Failure Address :=
  if maxSegwitSize < t.size then .error (.address .segwitTooLong)
  else
    match SegwitProgram.read? t with
    | none => .error (.bech32 .noProgram)
    | some p =>
        match Network.ofSegwitHrp? p.hrp with
        | none => .error (.unknownHrp p.hrp)
        | some network =>
            match AddressKind.ofWitness? p.version p.program.length with
            | none => .error (.address (.witnessLength p.program.length))
            | some kind => .ok { network, kind }

end PaymentTarget
