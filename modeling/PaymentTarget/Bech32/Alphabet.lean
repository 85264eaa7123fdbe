import PaymentTarget.Bits
import PaymentTarget.Text.Basic

/-! # The Bech32 alphabet

Thirty-two characters, one for each symbol. Symbols are written with small
letters and read in either case.
-/

namespace PaymentTarget

/-- The characters of the symbols 0 to 31, in order. -/
def bech32Alphabet : List Char :=
  ['q', 'p', 'z', 'r', 'y', '9', 'x', '8', 'g', 'f', '2', 't', 'v', 'd', 'w', '0',
    's', '3', 'j', 'n', '5', '4', 'k', 'h', 'c', 'e', '6', 'm', 'u', 'a', '7', 'l']

/-- The character of a symbol. -/
def Symbol.toChar (s : Symbol) : Char :=
  bech32Alphabet.get ⟨s.toNat, s.isLt⟩

/-- The symbol of a character, in either case. -/
def Symbol.ofChar? (c : Char) : Option Symbol :=
  (bech32Alphabet.idxOf? c.toLower).map (BitVec.ofNat 5)

/-- Each symbol is read back from its character. -/
theorem Symbol.ofChar?_toChar : ∀ s : Symbol, Symbol.ofChar? s.toChar = some s := by
  decide

end PaymentTarget
