import PaymentTarget.Bits

/-! # The Bech32 checksum

Symbols are folded into a residue of thirty bits. One step shifts the residue
by one symbol, adds the new symbol, and feeds the symbol shifted out back in.
All of it is addition of bit vectors without carry, so a step is linear in the
residue and the symbol together, and a checksum is the difference between the
residue that zeros would leave and the one that the variant asks for.
-/

namespace PaymentTarget

/-- The state of the checksum. -/
abbrev Residue := BitVec 30

/-- The two checksums, which differ in the residue of a valid word. -/
inductive ChecksumVariant where
  /-- Invoices, and segwit programs of version 0. -/
  | bech32
  /-- Segwit programs of later versions. -/
  | bech32m
  deriving Repr, DecidableEq

/-- The residue of a word with a valid checksum. -/
def ChecksumVariant.residue : ChecksumVariant → Residue
  | .bech32 => 1#30
  | .bech32m => 0x2bc830a3#30

namespace Residue

/-- What a symbol that leaves the residue adds to it. -/
def feedback (s : Symbol) : Residue :=
  (if s.getLsbD 0 then 0x3b6a57b2#30 else 0#30) ^^^
  (if s.getLsbD 1 then 0x26508e6d#30 else 0#30) ^^^
  (if s.getLsbD 2 then 0x1ea119fa#30 else 0#30) ^^^
  (if s.getLsbD 3 then 0x3d4233dd#30 else 0#30) ^^^
  (if s.getLsbD 4 then 0x2a1462b3#30 else 0#30)

/-- The residue after one more symbol. -/
def step (r : Residue) (s : Symbol) : Residue :=
  (r <<< 5) ^^^ s.setWidth 30 ^^^ feedback (r.extractLsb' 25 5)

/-- The residue after a sequence of symbols. -/
def absorb (r : Residue) (symbols : List Symbol) : Residue :=
  symbols.foldl step r

/-- The residue of a sequence of symbols. -/
def ofSymbols (symbols : List Symbol) : Residue :=
  absorb 1#30 symbols

/-- The residue cut into six symbols, the most significant first. -/
def toSymbols (r : Residue) : List Symbol :=
  [r.extractLsb' 25 5, r.extractLsb' 20 5, r.extractLsb' 15 5,
    r.extractLsb' 10 5, r.extractLsb' 5 5, r.extractLsb' 0 5]

/-- What two symbols feed back together is the sum of what each feeds back. -/
theorem feedback_xor : ∀ s t : Symbol, feedback (s ^^^ t) = feedback s ^^^ feedback t := by
  decide +kernel

/-- A step is linear in the residue and the symbol together. -/
theorem step_xor (r q : Residue) (s t : Symbol) :
    step (r ^^^ q) (s ^^^ t) = step r s ^^^ step q t := by
  simp only [step, BitVec.extractLsb'_xor, feedback_xor, BitVec.shiftLeft_xor_distrib,
    BitVec.setWidth_xor]
  ac_rfl

/-- A sequence is absorbed piece by piece. -/
theorem absorb_append (r : Residue) (xs ys : List Symbol) :
    r.absorb (xs ++ ys) = (r.absorb xs).absorb ys := by
  simp [absorb, List.foldl_append]

end Residue

/-- Number of symbols in a checksum. -/
def checksumLength : Nat := 6

/-- The symbols which, put behind `symbols`, leave the residue of the variant. -/
def ChecksumVariant.checksum (v : ChecksumVariant) (symbols : List Symbol) : List Symbol :=
  (Residue.ofSymbols (symbols ++ List.replicate checksumLength 0#5) ^^^ v.residue).toSymbols

end PaymentTarget
