import PaymentTarget.Invoice.Amount
import PaymentTarget.Invoice.Field
import PaymentTarget.Node.Key
import PaymentTarget.Bech32.Word

/-! # Invoices

An invoice is a Bech32 word without the length limit of addresses. Its
human-readable part states the network and the amount; its symbols are a
timestamp, tagged fields, and a signature. Neither the signature nor the expiry
is checked: an invoice is accepted for its structure.

Of a tag that occurs several times with a length that is read, the last field
counts. Fields of other tags or other lengths are skipped.
-/

namespace PaymentTarget

/-- What an invoice asks for. -/
structure Invoice where
  /-- The network of the currency. -/
  network : Network
  /-- The amount, if the invoice fixes one. -/
  amountMsat : Option Nat
  /-- Seconds from the start of 1970 to the making of the invoice. -/
  timestamp : Nat
  /-- The hash that the payment is bound to. -/
  paymentHash : List UInt8
  description : Option Text
  /-- Seconds from the timestamp to the end of the invoice. -/
  expirySecs : Nat
  /-- The node to be paid, if the invoice names it. -/
  payee : Option NodeKey
  deriving Repr, DecidableEq

namespace Invoice

/-- Whether a wallet on `network` can pay the invoice. -/
def isValidFor (i : Invoice) (network : Network) : Bool :=
  i.network == network

/-- The time at which the invoice ends, kept to 64 bits. -/
def expiresAt (timestamp expirySecs : Nat) : Nat :=
  min (timestamp + expirySecs) (wordBound - 1)

/-- Seconds an invoice lasts that does not say how long. -/
def defaultExpirySecs : Nat := 3600

/-- Number of symbols in the timestamp. -/
def timestampLength : Nat := 7

/-- Number of symbols in the signature, the recovery id included. -/
def signatureLength : Nat := 104

/-- Number of symbols in a payment hash. -/
def hashLength : Nat := 52

/-- Number of symbols in a payee. -/
def payeeLength : Nat := 53

/-- The most symbols of an expiry time: twelve of them fit in 64 bits. -/
def maxExpiryLength : Nat := 12

/-- What the fields of an invoice have said so far. -/
structure Details where
  paymentHash : Option (List UInt8) := none
  description : Option Text := none
  /-- The expiry time. -/
  expirySecs : Option Nat := none
  payee : Option NodeKey := none
  deriving Repr, DecidableEq

/-- The details after one more field. -/
def Details.add (d : Details) (f : Field) : Except Failure Details :=
  if f.tag = Field.hashTag ∧ f.payload.length = hashLength then
    .ok { d with paymentHash := some (bytesOfSymbols f.payload) }
  else if f.tag = Field.descriptionTag then
    match Text.ofUtf8? (bytesOfSymbols f.payload) with
    | some description => .ok { d with description := some description }
    | none => .error (.invoice .description)
  else if f.tag = Field.expiryTag ∧ 1 ≤ f.payload.length ∧ f.payload.length ≤ maxExpiryLength then
    .ok { d with expirySecs := some (numberOfSymbols f.payload) }
  else if f.tag = Field.payeeTag ∧ f.payload.length = payeeLength then
    match NodeKey.ofBytes (bytesOfSymbols f.payload) with
    | .ok payee => .ok { d with payee := some payee }
    | .error failure => .error failure
  else .ok d

/-- The details that a sequence of fields states. -/
def Details.ofFields (fields : List Field) : Except Failure Details :=
  fields.foldlM Details.add {}

/-- The details of a field region. A field whose content is refused comes
    before a later place where the symbols stop being fields. -/
def Details.ofSymbols (symbols : List Symbol) : Except Failure Details :=
  let (fields, fault) := Field.split symbols
  match Details.ofFields fields with
  | .error failure => .error failure
  | .ok details =>
      match fault with
      | some fault => .error (.invoice fault)
      | none => .ok details

/-- Whether the signature ends in a recovery id, a number up to three. -/
def hasRecoveryId (signature : List Symbol) : Bool :=
  match (bytesOfSymbols signature).getLast? with
  | some id => id ≤ 3
  | none => false

/-- The invoice with this network and amount whose symbols are `data`. -/
def ofData (network : Network) (amountMsat : Option Nat) (data : List Symbol) :
    Except Failure Invoice :=
  let fieldsLength := data.length - timestampLength - signatureLength
  let timestamp := data.take timestampLength
  let fields := (data.drop timestampLength).take fieldsLength
  let signature := data.drop (timestampLength + fieldsLength)
  if data.length < timestampLength + signatureLength then
    .error (.invoice (.tooShort data.length))
  else if !hasRecoveryId signature then .error (.invoice .recoveryId)
  else
    match Details.ofSymbols fields with
    | .error failure => .error failure
    | .ok details =>
        match details.paymentHash with
        | none => .error (.invoice .missingPaymentHash)
        | some paymentHash =>
            .ok {
              network
              amountMsat
              timestamp := numberOfSymbols timestamp
              paymentHash
              description := details.description
              expirySecs := details.expirySecs.getD defaultExpirySecs
              payee := details.payee }

/-- The invoice that a Bech32 word carries. -/
def ofWord (w : Word) : Except Failure Invoice :=
  match InvoiceHrp.read w.hrp with
  | .error failure => .error failure
  | .ok (network, amountMsat) => ofData network amountMsat w.data

def read (t : Text) : Except Failure Invoice :=
  if t.isEmpty then .error .empty
  else if Text.lower (t.take 2) ≠ InvoiceHrp.start then .error (.invoice .missingStart)
  else
    match Word.read? t with
    | none => .error (.bech32 .malformed)
    | some w =>
        if Text.maxSize < t.size || !w.checks .bech32 then .error (.bech32 .checksum)
        else ofWord w

end Invoice

end PaymentTarget
