import PaymentTarget.Failure
import PaymentTarget.Radix
import PaymentTarget.Bech32.Number

/-! # Amounts of invoices

The human-readable part of an invoice is `ln`, a currency, and an optional
amount: decimal digits that count bitcoins, or the part of a bitcoin that a
multiplier letter names. Amounts are kept in millisatoshis, of which a bitcoin
has 10 ^ 11, so that the last multiplier, a tenth of a millisatoshi, asks for a
multiple of ten.
-/

namespace PaymentTarget

/-- The parts of a bitcoin that an amount can count. -/
inductive Multiplier where
  /-- Thousandths, the letter `m`. -/
  | milli
  /-- Millionths, the letter `u`. -/
  | micro
  /-- Thousand millionths, the letter `n`. -/
  | nano
  /-- Million millionths, the letter `p`. -/
  | pico
  deriving Repr, DecidableEq

/-- Millisatoshis in a bitcoin. -/
def msatPerBitcoin : Nat := 100000000000

namespace Multiplier

/-- The multiplier that a letter names. -/
def ofChar? : Char → Option Multiplier
  | 'm' => some .milli
  | 'u' => some .micro
  | 'n' => some .nano
  | 'p' => some .pico
  | _ => none

end Multiplier

namespace Amount

/-- The amount without its multiplier letter, and the multiplier. -/
def split (t : Text) : Text × Option Multiplier :=
  match t.getLast?.bind Multiplier.ofChar? with
  | some multiplier => (t.dropLast, some multiplier)
  | none => (t, none)

/-- A number of millisatoshis that fits in 64 bits. -/
def bounded (msat : Nat) : Except AmountFault Nat :=
  if msat < wordBound then .ok msat else .error .overflow

/-- So many bitcoins, or parts of a bitcoin, in millisatoshis. -/
def ofCount (count : Nat) : Option Multiplier → Except AmountFault Nat
  | none => bounded (count * msatPerBitcoin)
  | some .milli => bounded (count * (msatPerBitcoin / 1000))
  | some .micro => bounded (count * (msatPerBitcoin / 1000000))
  | some .nano => bounded (count * (msatPerBitcoin / 1000000000))
  | some .pico => if count % 10 = 0 then .ok (count / 10) else .error .fractional

/-- The amount that a text writes, in millisatoshis. -/
def read (t : Text) : Except AmountFault Nat :=
  let (digits, multiplier) := split t
  let count := Radix.value 10 (digits.map fun c => c.toNat - '0'.toNat)
  if digits.isEmpty || !digits.all Char.isDigit then .error .malformed
  else if digits.head? = some '0' then .error .leadingZero
  else if wordBound ≤ count then .error .overflow
  else ofCount count multiplier

end Amount

namespace InvoiceHrp

/-- What the human-readable part of every invoice starts with. -/
def start : Text := ['l', 'n']

/-- The networks in the order in which their currencies are tried: a currency
    comes before the one it extends. -/
def currencyOrder : List Network :=
  [.regtest, .signet, .bitcoin, .testnet]

/-- The network and the amount that the human-readable part of an invoice
    states, in small letters. -/
def read (hrp : Text) : Except Failure (Network × Option Nat) :=
  match hrp with
  | 'l' :: 'n' :: rest =>
      match currencyOrder.find? fun network => network.currency.isPrefixOf rest with
      | none => .error (.unknownHrp hrp)
      | some network =>
          let amount := rest.drop network.currency.length
          if amount.isEmpty then .ok (network, none)
          else
            match Amount.read amount with
            | .error fault => .error (.amount fault amount)
            | .ok msat => .ok (network, some msat)
  | _ => .error (.invoice .missingStart)

end InvoiceHrp

end PaymentTarget
