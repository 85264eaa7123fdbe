import PaymentTarget.Failure
import PaymentTarget.Bech32.Number

/-! # Tagged fields

Between the timestamp and the signature of an invoice stand fields: a tag, the
number of symbols of the payload in two symbols, and the payload. They are read
one after the other; where the symbols stop being fields, the fields before
that place still count.
-/

namespace PaymentTarget

/-- A tagged field. -/
structure Field where
  /-- What the field is about. -/
  tag : Symbol
  /-- What it says. -/
  payload : List Symbol
  deriving Repr, DecidableEq

namespace Field

/-- The tag `p`, of payment hashes. -/
def hashTag : Symbol := 1#5

/-- The tag `d`, of descriptions. -/
def descriptionTag : Symbol := 13#5

/-- The tag `x`, of expiry times. -/
def expiryTag : Symbol := 6#5

/-- The tag `n`, of payees. -/
def payeeTag : Symbol := 19#5

/-- The first number of symbols that a field cannot state. -/
def lengthBound : Nat := 1024

def symbols (f : Field) : List Symbol :=
  f.tag :: symbolsOfNumber f.payload.length 2 ++ f.payload

/-- The fields at the start of a sequence of symbols, and what is wrong behind
    them, if anything is. -/
def split : List Symbol → List Field × Option InvoiceFault
  | [] => ([], none)
  | tag :: high :: low :: rest =>
      let length := 32 * high.toNat + low.toNat
      if rest.length < length then ([], some (.overrun tag))
      else
        let (fields, fault) := split (rest.drop length)
        ({ tag, payload := rest.take length } :: fields, fault)
  | _ => ([], some .truncatedField)
termination_by symbols => symbols.length
decreasing_by simp only [List.length_drop, List.length_cons]; omega

/-- A field at the start is read, and the rest as if it stood alone. -/
theorem split_symbols_append (f : Field) (rest : List Symbol)
    (h : f.payload.length < lengthBound) :
    split (f.symbols ++ rest) = (f :: (split rest).1, (split rest).2) := by
  have hlength : 32 * (BitVec.ofNat 5 (f.payload.length / 32)).toNat
      + (BitVec.ofNat 5 f.payload.length).toNat = f.payload.length := toNat_two_digits h
  simp only [symbols, symbolsOfNumber_two, List.cons_append, List.nil_append]
  rw [split]
  simp only [hlength, List.length_append, Nat.not_lt.2 (Nat.le_add_right _ _), if_false,
    List.take_left, List.drop_left]

/-- The fields that were written are read back, with nothing wrong behind them. -/
theorem split_flatMap_symbols (fields : List Field)
    (h : ∀ f ∈ fields, f.payload.length < lengthBound) :
    split (fields.flatMap symbols) = (fields, none) := by
  induction fields with
  | nil => rw [List.flatMap_nil, split]
  | cons f rest ih =>
      rw [List.flatMap_cons, split_symbols_append f _ (h f List.mem_cons_self),
        ih fun g hg => h g (List.mem_cons_of_mem f hg)]

end Field

end PaymentTarget
