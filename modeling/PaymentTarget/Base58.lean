import PaymentTarget.Radix
import PaymentTarget.Sha256
import PaymentTarget.Text.Basic

/-! # Base58 and Base58Check

Bytes are read as one number in base 256 and written in base 58; the leading
zero bytes, which the number does not show, are written as leading `1`s.
Base58Check appends the first four bytes of the double SHA-256 digest.
-/

namespace PaymentTarget.Base58

/-- The digits of base 58: ASCII digits and letters without `0`, `O`, `I` and `l`. -/
def alphabet : List Char :=
  ['1', '2', '3', '4', '5', '6', '7', '8', '9', 'A', 'B', 'C', 'D', 'E', 'F', 'G', 'H', 'J', 'K',
    'L', 'M', 'N', 'P', 'Q', 'R', 'S', 'T', 'U', 'V', 'W', 'X', 'Y', 'Z', 'a', 'b', 'c', 'd', 'e',
    'f', 'g', 'h', 'i', 'j', 'k', 'm', 'n', 'o', 'p', 'q', 'r', 's', 't', 'u', 'v', 'w', 'x', 'y',
    'z']

def digitValue? (c : Char) : Option Nat :=
  alphabet.idxOf? c

/-- The digit of a value below 58. -/
def digit (value : Nat) : Char :=
  alphabet.getD value '1'

def encode (bytes : List UInt8) : Text :=
  let zeros := (bytes.takeWhile (· == 0)).length
  List.replicate zeros '1'
    ++ (Radix.digits 58 (Radix.value 256 (bytes.map UInt8.toNat))).map digit

/-- The bytes that a text of base-58 digits stands for. -/
def decode? (t : Text) : Option (List UInt8) :=
  (t.mapM digitValue?).map fun values =>
    let zeros := (values.takeWhile (· == 0)).length
    List.replicate zeros 0 ++ (Radix.digits 256 (Radix.value 58 values)).map UInt8.ofNat

/-- Number of bytes in a checksum. -/
def checksumLength : Nat := 4

def checksum (payload : List UInt8) : List UInt8 :=
  (Sha256.doubleDigest payload).take checksumLength

/-- A payload with its checksum, in base 58. -/
def encodeCheck (payload : List UInt8) : Text :=
  encode (payload ++ checksum payload)

end PaymentTarget.Base58
