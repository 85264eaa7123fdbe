/-! # The curve secp256k1

The points are the pairs `(x, y)` of numbers below the field prime with
`y² = x³ + 7`. The prime leaves 3 when divided by 4, so the only candidates for
a root of a number are a fixed power of it and the negative of that power:
whether an abscissa belongs to a point is settled by one power and one square.
-/

namespace PaymentTarget.Secp256k1

/-- The field prime. -/
def prime : Nat := Nat.pow 2 256 - Nat.pow 2 32 - 977

/-- The number of points, the one at infinity included. -/
def order : Nat := 0xfffffffffffffffffffffffffffffffebaaedce6af48a03bbfd25e8cd0364141

/-- The bits of a number below 2 ^ 256, the most significant first. -/
def bits (n : Nat) : List Bool :=
  ((List.range 256).map n.testBit).reverse

/-- A power in the field, by squaring; the exponent is below 2 ^ 256. -/
def power (base exponent : Nat) : Nat :=
  (bits exponent).foldl
    (fun acc bit =>
      let square := acc * acc % prime
      if bit then square * base % prime else square) 1

/-- The right side of the equation of the curve. -/
def cubic (x : Nat) : Nat :=
  (x * x % prime * x + 7) % prime

/-- A root of a square; a number without sense for what is no square. -/
def rootCandidate (a : Nat) : Nat :=
  power a ((prime + 1) / 4)

/-- Whether a point of the curve has the abscissa `x`. -/
def isAbscissa (x : Nat) : Bool :=
  let y := rootCandidate (cubic x)
  x < prime && y * y % prime == cubic x

/-- A point of the curve. -/
inductive Point where
  /-- The point at infinity, which changes nothing when added. -/
  | infinity
  /-- The point with these coordinates. -/
  | affine (x y : Nat)
  deriving Repr, DecidableEq

/-- The difference of two numbers of the field. -/
def minus (a b : Nat) : Nat :=
  (a + (prime - b % prime)) % prime

/-- The inverse of a number of the field other than zero. -/
def inverse (a : Nat) : Nat :=
  power a (prime - 2)

namespace Point

/-- The point that generates the group. -/
def generator : Point :=
  .affine 0x79be667ef9dcbbac55a06295ce870b07029bfcdb2dce28d959f2815b16f81798
    0x483ada7726a3c4655da4fbfc0e1108a8fd17b448a68554199c47d08ffb10d4b8

/-- The third point of the line with this slope through the points with the
    abscissae `x₁` and `x₂`, reflected; `y₁` belongs to `x₁`. -/
def chord (slope x₁ y₁ x₂ : Nat) : Point :=
  let x := minus (minus (slope * slope % prime) x₁) x₂
  .affine x (minus (slope * minus x₁ x % prime) y₁)

/-- The sum of two points. -/
def add : Point → Point → Point
  | .infinity, q => q
  | p, .infinity => p
  | .affine x₁ y₁, .affine x₂ y₂ =>
      if x₁ = x₂ then
        if (y₁ + y₂) % prime = 0 then .infinity
        else chord (3 * (x₁ * x₁) * inverse (2 * y₁ % prime) % prime) x₁ y₁ x₂
      else chord (minus y₂ y₁ * inverse (minus x₂ x₁) % prime) x₁ y₁ x₂

/-- The multiple of a point by a number below 2 ^ 256. -/
def multiple (scalar : Nat) (p : Point) : Point :=
  (bits scalar).foldl
    (fun acc bit =>
      let double := add acc acc
      if bit then add double p else double) .infinity

end Point

end PaymentTarget.Secp256k1
