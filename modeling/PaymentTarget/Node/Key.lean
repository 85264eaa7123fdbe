import PaymentTarget.Failure
import PaymentTarget.Radix
import PaymentTarget.Secp256k1

/-! # Node keys

A node is known by a point of secp256k1 in compressed form: a byte that tells
the two points with one abscissa apart, and the abscissa in thirty-two bytes.
-/

namespace PaymentTarget

/-- Number of bytes in a node key. -/
def nodeKeyLength : Nat := 33

/-- Whether bytes are a point of the curve in compressed form. -/
def isCompressedPoint (bytes : List UInt8) : Bool :=
  bytes.length == nodeKeyLength && (bytes.headD 0 == 2 || bytes.headD 0 == 3)
    && Secp256k1.isAbscissa (Radix.value 256 (bytes.tail.map UInt8.toNat))

/-- The public key that identifies a node. -/
structure NodeKey where
  /-- The compressed form. -/
  bytes : List UInt8
  /-- Only points of the curve are node keys. -/
  isPoint : isCompressedPoint bytes = true
  deriving Repr, DecidableEq

namespace NodeKey

/-- The key with these bytes. The first byte is looked at before the curve. -/
def ofBytes (bytes : List UInt8) : Except Failure NodeKey :=
  if bytes.headD 0 ≠ 2 ∧ bytes.headD 0 ≠ 3 then .error (.nodeKey (.leadByte (bytes.headD 0)))
  else if h : isCompressedPoint bytes = true then .ok ⟨bytes, h⟩
  else .error (.nodeKey .notOnCurve)

/-- The key in small hexadecimal digits. -/
def toHex (k : NodeKey) : Text :=
  Hex.encode k.bytes

/-- Number of digits in the text of a key. -/
def textSize : Nat := 2 * nodeKeyLength

/-- Reads a key from hexadecimal digits in either case. -/
def read (t : Text) : Except Failure NodeKey :=
  if t.size ≠ textSize then .error (.nodeKey (.size t.size))
  else
    match Hex.decode t with
    | .error fault => .error (.hex fault)
    | .ok bytes => ofBytes bytes

/-- The key of a secret number, which is a multiple of the generator. Zero and
    the numbers from the order of the group on are no secrets. -/
def ofSecret? (secret : Nat) : Option NodeKey :=
  if secret = 0 ∨ Secp256k1.order ≤ secret then none
  else
    match Secp256k1.Point.multiple secret .generator with
    | .infinity => none
    | .affine x y =>
        let abscissa := (Radix.digits 256 x).map UInt8.ofNat
        let bytes := (if y % 2 = 0 then 2 else 3)
          :: (List.replicate (32 - abscissa.length) 0 ++ abscissa)
        (ofBytes bytes).toOption

end NodeKey

end PaymentTarget
