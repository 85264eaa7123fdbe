import PaymentTarget.Address.Legacy
import PaymentTarget.Invoice.Basic

/-! # Payment URIs

A scheme name, a colon, and a destination. Behind the address of a `bitcoin:`
URI a question mark can begin parameters, which are not looked at here. Scheme
names are read in any letter case.
-/

namespace PaymentTarget

namespace Uri

/-- The scheme of URIs that hold an address. -/
def bitcoinScheme : Text := ['b', 'i', 't', 'c', 'o', 'i', 'n']

/-- The scheme of URIs that hold an invoice. -/
def lightningScheme : Text := ['l', 'i', 'g', 'h', 't', 'n', 'i', 'n', 'g']

/-- What follows the scheme and its colon, if the text begins with them. -/
def body? (scheme t : Text) : Option Text :=
  match t.splitFirst? ':' with
  | none => none
  | some (head, body) => if head.sameLetters scheme then some body else none

/-- The part of a body before its parameters. -/
def withoutParameters (body : Text) : Text :=
  match body.splitFirst? '?' with
  | none => body
  | some (before, _) => before

end Uri

/-- Reads the address of a `bitcoin:` URI. -/
def Address.readUri (t : Text) : Except Failure Address :=
  match Uri.body? Uri.bitcoinScheme t with
  | none => .error (.address .missingScheme)
  | some body => Address.read (Uri.withoutParameters body)

/-- Reads the invoice of a `lightning:` URI. -/
def Invoice.readUri (t : Text) : Except Failure Invoice :=
  match Uri.body? Uri.lightningScheme t with
  | none => .error (.invoice .missingScheme)
  | some body => Invoice.read body

end PaymentTarget
