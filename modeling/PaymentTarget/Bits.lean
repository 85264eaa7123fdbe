/-! # Regrouping bits

Bytes and five-bit symbols are two ways to cut one sequence of bits, which is
written with the most significant bit first. Cutting into symbols fills the
last one with zeros; cutting into bytes leaves the bits that fill no byte.
-/

namespace PaymentTarget

/-- A value of five bits, what one character of a Bech32 text stands for. -/
abbrev Symbol := BitVec 5

/-- A sequence of bits, the most significant first. -/
abbrev Bits := List Bool

namespace Bits

/-- The number a sequence of bits writes. -/
def toNat (bits : Bits) : Nat :=
  bits.foldl (fun n b => 2 * n + b.toNat) 0

def ofByte (byte : UInt8) : Bits :=
  let v := byte.toBitVec
  [v.getLsbD 7, v.getLsbD 6, v.getLsbD 5, v.getLsbD 4,
    v.getLsbD 3, v.getLsbD 2, v.getLsbD 1, v.getLsbD 0]

def ofSymbol (s : Symbol) : Bits :=
  [s.getLsbD 4, s.getLsbD 3, s.getLsbD 2, s.getLsbD 1, s.getLsbD 0]

/-- The bits of a sequence of bytes. -/
def ofBytes (bytes : List UInt8) : Bits :=
  bytes.flatMap ofByte

/-- The bits of a sequence of symbols. -/
def ofSymbols (symbols : List Symbol) : Bits :=
  symbols.flatMap ofSymbol

/-- The symbol of at most five bits, filled with zeros on the right. -/
def symbol (bits : Bits) : Symbol :=
  BitVec.ofNat 5 (toNat ((bits ++ List.replicate 5 false).take 5))

/-- The byte of eight bits. -/
def byte (bits : Bits) : UInt8 :=
  UInt8.ofNat (toNat bits)

/-- Cut into symbols; a last incomplete one is filled with zeros. -/
def toSymbols : Bits → List Symbol
  | [] => []
  | b₄ :: b₃ :: b₂ :: b₁ :: b₀ :: rest => symbol [b₄, b₃, b₂, b₁, b₀] :: toSymbols rest
  | rest => [symbol rest]

/-- Cut into bytes; bits that fill no byte are left out. -/
def toBytes : Bits → List UInt8
  | b₇ :: b₆ :: b₅ :: b₄ :: b₃ :: b₂ :: b₁ :: b₀ :: rest =>
      byte [b₇, b₆, b₅, b₄, b₃, b₂, b₁, b₀] :: toBytes rest
  | _ => []

/-- The bits after the last full byte. -/
def afterBytes (bits : Bits) : Bits :=
  bits.drop (8 * (bits.length / 8))

theorem byte_ofByte (b : UInt8) : byte (ofByte b) = b :=
  have h : ∀ v : BitVec 8, byte (ofByte ⟨v⟩) = ⟨v⟩ := by decide
  h b.toBitVec

theorem symbol_ofSymbol : ∀ s : Symbol, symbol (ofSymbol s) = s := by
  decide

/-- Bytes are found again in their bits. -/
theorem toBytes_ofBytes (bytes : List UInt8) : (ofBytes bytes).toBytes = bytes := by
  induction bytes with
  | nil => rfl
  | cons b rest ih => exact congr (congrArg List.cons (byte_ofByte b)) ih

/-- Symbols are found again in their bits. -/
theorem toSymbols_ofSymbols (symbols : List Symbol) : (ofSymbols symbols).toSymbols = symbols := by
  induction symbols with
  | nil => rfl
  | cons s rest ih => exact congr (congrArg List.cons (symbol_ofSymbol s)) ih

end Bits

/-- The symbols that carry a sequence of bytes. -/
def symbolsOfBytes (bytes : List UInt8) : List Symbol :=
  (Bits.ofBytes bytes).toSymbols

/-- The full bytes that a sequence of symbols carries. -/
def bytesOfSymbols (symbols : List Symbol) : List UInt8 :=
  (Bits.ofSymbols symbols).toBytes

end PaymentTarget
