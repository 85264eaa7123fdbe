import PaymentTarget.Invoice.Basic

/-! # Drafts of invoices

A draft is what an invoice is written from. Nobody signs it: the signature is
filler with a recovery id behind it. Fields of any tag and trailing symbols can
be added, so that drafts also write what readers have to refuse.
-/

namespace PaymentTarget

/-- The timestamp of drafts that do not say otherwise. -/
def InvoiceDraft.defaultTimestamp : Nat := 1496314658

/-- What an invoice is written from. -/
structure InvoiceDraft where
  /-- The whole human-readable part. -/
  hrp : Text
  /-- Seconds from the start of 1970. -/
  timestamp : Nat := InvoiceDraft.defaultTimestamp
  paymentHash : Option (Vector UInt8 32) := none
  description : Option Text := none
  /-- The expiry time in seconds. -/
  expirySecs : Option Nat := none
  /-- The key of the payee, whether it is a point or not. -/
  payee : Option (Vector UInt8 33) := none
  /-- More fields, each with the character of its tag. -/
  rawFields : List (Char × List Symbol) := []
  /-- Symbols between the last field and the signature. -/
  trailing : List Symbol := []
  /-- The last byte of the signature. -/
  recoveryId : UInt8 := 0
  deriving Repr, DecidableEq

/-- Why a draft cannot be written. -/
inductive DraftFault where
  /-- The human-readable part has a fault. -/
  | hrp (hrp : Text) (fault : HrpFault)
  /-- The timestamp has more than 35 bits. -/
  | timestamp
  /-- A field has more symbols than a field can state. -/
  | fieldTooLong (tag : Char)
  /-- A tag that is ASCII and in the alphabet in neither case. -/
  | tagOutsideAlphabet (tag : Char)
  | tagNotAscii (tag : Char)
  deriving Repr, DecidableEq

/-- The message of a fault of a human-readable part. -/
def HrpFault.message : HrpFault → String
  | .empty => "hrp is empty, must have at least 1 character"
  | .tooLong n => s!"hrp is too long, found {n} characters, must be <= 126"
  | .notAscii c => "found non-ASCII character: " ++ String.ofList [c]
  | .notVisible c =>
      "byte value is not valid US-ASCII: '" ++ String.ofList (Nat.toDigits 16 c.toNat) ++ "'"
  | .mixedCase => "hrp cannot mix upper and lower case"

def DraftFault.message : DraftFault → String
  | .hrp part fault => "invalid hrp " ++ String.ofList part ++ ": " ++ fault.message
  | .timestamp => "timestamp does not fit in 35 bits"
  | .fieldTooLong tag => "field '" ++ String.ofList [tag] ++ "' longer than 1023"
  | .tagOutsideAlphabet tag =>
      "tag '" ++ String.ofList [tag] ++ "': invalid char in field element: " ++ String.ofList [tag]
  | .tagNotAscii tag =>
      "tag '" ++ String.ofList [tag] ++ "': non-ascii char in field element: "
        ++ String.ofList [tag]

namespace InvoiceDraft

/-- The first timestamp that does not fit. -/
def timestampBound : Nat := Nat.pow 2 35

/-- The field with the tag that a character stands for, in either case. -/
def field (tag : Char) (payload : List Symbol) : Except DraftFault Field :=
  if Field.lengthBound ≤ payload.length then .error (.fieldTooLong tag)
  else
    match Symbol.ofChar? tag with
    | some symbol => .ok { tag := symbol, payload }
    | none => .error (if tag.toNat < 128 then .tagOutsideAlphabet tag else .tagNotAscii tag)

/-- The fields of a draft by the characters of their tags, in the order in which
    they are written. -/
def taggedPayloads (d : InvoiceDraft) : List (Char × List Symbol) :=
  (d.paymentHash.map fun hash => ('p', symbolsOfBytes hash.toList)).toList
    ++ (d.description.map fun text => ('d', symbolsOfBytes text.utf8)).toList
    ++ (d.expirySecs.map fun secs => ('x', symbolsOfNumber secs (symbolWidth secs))).toList
    ++ (d.payee.map fun key => ('n', symbolsOfBytes key.toList)).toList
    ++ d.rawFields

/-- The symbols that stand in the place of a signature. -/
def signature (d : InvoiceDraft) : List Symbol :=
  symbolsOfBytes (List.replicate 64 0x11 ++ [d.recoveryId])

/-- The symbols of a draft with these fields, without the checksum. -/
def data (d : InvoiceDraft) (fields : List Field) : List Symbol :=
  symbolsOfNumber d.timestamp Invoice.timestampLength ++ fields.flatMap Field.symbols
    ++ d.trailing ++ d.signature

/-- Writes a draft as an invoice in small letters. -/
def write (d : InvoiceDraft) : Except DraftFault Text :=
  match Hrp.fault? d.hrp with
  | some fault => .error (.hrp d.hrp fault)
  | none =>
      if timestampBound ≤ d.timestamp then .error .timestamp
      else
        match d.taggedPayloads.mapM fun (tag, payload) => field tag payload with
        | .error fault => .error fault
        | .ok fields =>
            .ok (Word.withChecksum .bech32 d.hrp.lower (d.data fields)).write

end InvoiceDraft

end PaymentTarget
