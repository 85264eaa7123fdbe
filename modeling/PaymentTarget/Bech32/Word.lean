import PaymentTarget.Bech32.Alphabet
import PaymentTarget.Bech32.Checksum
import PaymentTarget.Bech32.Hrp

/-! # Bech32 words

A human-readable part, the separator `1`, and symbols of which the last six are
a checksum. The separator is the last `1` of the text, because no symbol is
written with it. A word is written in one letter case; as a value it is in
small letters.
-/

namespace PaymentTarget

/-- A text in the Bech32 form, its checksum not yet looked at. -/
structure Word where
  /-- The human-readable part, in small letters. -/
  hrp : Text
  /-- All symbols, those of the checksum included. -/
  symbols : List Symbol
  deriving Repr, DecidableEq

namespace Word

/-- The word that a text in one letter case writes. -/
def read? (t : Text) : Option Word :=
  if t.isMixedCase then none
  else
    match t.lower.splitLast? '1' with
    | none => none
    | some (hrp, tail) =>
        if Hrp.fault? hrp = none then
          (tail.mapM Symbol.ofChar?).map fun symbols => { hrp, symbols }
        else none

/-- The word in small letters. -/
def write (w : Word) : Text :=
  w.hrp ++ '1' :: w.symbols.map Symbol.toChar

/-- The symbols before the checksum. -/
def data (w : Word) : List Symbol :=
  w.symbols.take (w.symbols.length - checksumLength)

/-- Whether the last six symbols are the checksum of the rest. -/
def checks (v : ChecksumVariant) (w : Word) : Bool :=
  checksumLength ≤ w.symbols.length &&
    Residue.ofSymbols (Hrp.expand w.hrp ++ w.symbols) == v.residue

/-- The word that carries `data`, with its checksum. -/
def withChecksum (v : ChecksumVariant) (hrp : Text) (data : List Symbol) : Word :=
  { hrp, symbols := data ++ v.checksum (Hrp.expand hrp ++ data) }

end Word

end PaymentTarget
