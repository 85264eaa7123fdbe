import PaymentTarget.Address.Legacy
import PaymentTarget.Invoice.Draft

/-! # Sample destinations

Texts to try a classifier on. Well-known addresses and the generator of the
curve stand beside texts that are written here, so that their checksums and
points are right because of how they are made. A last list holds near misses,
which are no destinations.
-/

namespace PaymentTarget.Samples

/-- The generator of the curve as a node key. -/
def generatorKey : String :=
  "0279be667ef9dcbbac55a06295ce870b07029bfcdb2dce28d959f2815b16f81798"

/-- A text that is no destination. -/
def noDestination : String :=
  "not-a-real-thing-12345"

/-- The key of the secret whose thirty-two bytes all are `seed`. -/
def keyOfSeed? (seed : UInt8) : Option NodeKey :=
  NodeKey.ofSecret? (Radix.value 256 (List.replicate 32 seed.toNat))

/-- The hexadecimal text of the key of a seed. -/
def keyTextOfSeed (seed : UInt8) : Text :=
  match keyOfSeed? seed with
  | some key => key.toHex
  | none => []

/-- Node keys; the last one is in capitals. -/
def nodeKeys : List Text :=
  generatorKey.toList :: [1, 2, 3, 4, 5, 6, 7, 8].map keyTextOfSeed ++ [(keyTextOfSeed 9).upper]

/-- Connection strings with the first three keys. -/
def connectionStrings : List Text :=
  List.zipWith (fun key host => key ++ '@' :: host.toList) nodeKeys
    ["127.0.0.1:9735", "node.example.com", "[2001:db8::1]:9735"]

structure SampleAddress where
  /-- The address. -/
  text : Text
  /-- The network it is recorded for. -/
  network : Network
  /-- The name of its kind. -/
  kind : String
  deriving Repr, DecidableEq

/-- Addresses known from elsewhere. -/
def knownAddresses : List SampleAddress :=
  [⟨"bc1qw508d6qejxtdg4y5r3zarvary0c5xw7kv8f3t4".toList, .bitcoin, "p2wpkh"⟩,
    ⟨"BC1QW508D6QEJXTDG4Y5R3ZARVARY0C5XW7KV8F3T4".toList, .bitcoin, "p2wpkh"⟩,
    ⟨"tb1qrp33g0q5c5txsp9arysrx4k6zdkfs4nce4xj0gdcccefvpysxf3q0sl5k7".toList, .testnet, "p2wsh"⟩,
    ⟨"bc1p0xlxvlhemja6c4dqv22uapctqupfhlxm9h8z3k2e72q4k9hcz7vqzk5jj0".toList, .bitcoin, "p2tr"⟩,
    ⟨"1A1zP1eP5QGefi2DMPTfTL5SLmv7DivfNa".toList, .bitcoin, "p2pkh"⟩,
    ⟨"3J98t1WpEZ73CNmQviecrnyiWrnqRhWNLy".toList, .bitcoin, "p2sh"⟩]

/-- A segwit address of so many bytes that all are `byte`. -/
def segwitAddress (network : Network) (version : Symbol) (byte : UInt8) (length : Nat)
    (kind : String) : SampleAddress :=
  { text := SegwitProgram.write
      { hrp := network.segwitHrp, version, program := List.replicate length byte }
    network, kind }

/-- A Base58 address of a version byte and twenty equal bytes. -/
def legacyAddress (network : Network) (version : UInt8) (kind : String) : SampleAddress :=
  { text := Base58.encodeCheck (version :: List.replicate 20 0x5a), network, kind }

/-- On-chain addresses. -/
def addresses : List SampleAddress :=
  knownAddresses
    ++ [segwitAddress .bitcoin 0#5 0x40 32 "p2wsh",
      segwitAddress .testnet 0#5 0x41 20 "p2wpkh",
      segwitAddress .testnet 1#5 0x42 32 "p2tr",
      segwitAddress .regtest 0#5 0x43 20 "p2wpkh",
      segwitAddress .regtest 1#5 0x44 32 "p2tr",
      segwitAddress .bitcoin 2#5 0x45 16 "witness_unknown",
      legacyAddress .bitcoin 0x00 "p2pkh",
      legacyAddress .bitcoin 0x05 "p2sh",
      legacyAddress .testnet 0x6f "p2pkh",
      legacyAddress .testnet 0xc4 "p2sh"]

/-- An invoice and what it was written from. -/
structure SampleInvoice where
  /-- The invoice. -/
  text : Text
  /-- The network of its currency. -/
  network : Network
  /-- Its amount in millisatoshis. -/
  amountMsat : Option Nat
  /-- The draft it was written from. -/
  draft : InvoiceDraft
  deriving Repr, DecidableEq

/-- The text of a draft that can be written. -/
def textOf (d : InvoiceDraft) : Text :=
  match d.write with
  | .ok text => text
  | .error _ => []

/-- The compressed form of the key of the first seed. -/
def payee? : Option (Vector UInt8 33) :=
  (keyOfSeed? 1).bind fun key =>
    if h : key.bytes.length = 33 then some ⟨key.bytes.toArray, by simpa using h⟩ else none

/-- A sample with the text of its draft. -/
def sampleInvoice (network : Network) (amountMsat : Option Nat) (draft : InvoiceDraft) :
    SampleInvoice :=
  { text := textOf draft, network, amountMsat, draft }

/-- One invoice for each network, with and without the optional parts. -/
def writtenInvoices : List SampleInvoice :=
  [sampleInvoice .bitcoin none
      { hrp := "lnbc".toList
        paymentHash := some (Vector.replicate 32 1)
        description := some "Please consider supporting this project".toList },
    sampleInvoice .bitcoin (some 250000000)
      { hrp := "lnbc2500u".toList
        paymentHash := some (Vector.replicate 32 2)
        description := some "1 cup coffee".toList
        expirySecs := some 60 },
    sampleInvoice .testnet (some 2000000000)
      { hrp := "lntb20m".toList
        paymentHash := some (Vector.replicate 32 3)
        payee := payee? },
    sampleInvoice .signet (some 1)
      { hrp := "lntbs10p".toList
        paymentHash := some (Vector.replicate 32 4)
        description := some "signet".toList
        expirySecs := some 86400 },
    sampleInvoice .regtest (some 100000000000)
      { hrp := "lnbcrt1".toList
        paymentHash := some (Vector.replicate 32 5)
        description := some "ナンセンス 1杯".toList
        payee := payee? }]

/-- Invoices; the last one is the second in capitals. -/
def invoices : List SampleInvoice :=
  writtenInvoices
    ++ ((writtenInvoices.drop 1).take 1).map fun sample => { sample with text := sample.text.upper }

def firstAddress : Text :=
  match addresses with
  | [] => []
  | sample :: _ => sample.text

def invoiceText (place : Nat) : Text :=
  match invoices.drop place with
  | [] => []
  | sample :: _ => sample.text

/-- A text with its letters in capitals and small letters by turns. -/
def alternateCase : Text → Text
  | a :: b :: rest => a.toUpper :: b.toLower :: alternateCase rest
  | [a] => [a.toUpper]
  | [] => []

/-- A text with another last character of the Bech32 alphabet. -/
def changeLast (t : Text) : Text :=
  match t.getLast? with
  | none => []
  | some last => t.dropLast ++ [if last = 'q' then 'p' else 'q']

/-- Texts that have the outside of a destination at most. -/
def garbage : List Text :=
  [noDestination, " ", "\t\n", "hello world", "bitcoin:", "lightning:", "lnbc1", "bc1", "🦀🦀🦀",
    "\x00"].map String.toList

/-- Destinations with one thing wrong. -/
def damaged (key address invoice : Text) : List Text :=
  [' ' :: address,
    key ++ ['\n'],
    ' ' :: invoice ++ [' '],
    alternateCase address,
    key.take 64,
    address.dropLast,
    invoice.dropLast,
    changeLast address,
    changeLast invoice,
    key.take 2 ++ List.replicate 64 'f',
    "04".toList ++ key.drop 2,
    "1A1zP1eP5QGefi2DMPTfTL5SLmv7DivfNb".toList,
    key ++ ['@'],
    key ++ "@host:99999".toList]

/-- Invoices with a valid checksum and something wrong inside. -/
def brokenInvoices : List Text :=
  let hash : Option (Vector UInt8 32) := some (Vector.replicate 32 7)
  let hrp := "lnbc2500u".toList
  [textOf { hrp, description := some "no hash".toList },
    textOf { hrp, paymentHash := hash, recoveryId := 4 },
    textOf { hrp := "lnbc025u".toList, paymentHash := hash },
    textOf { hrp := "lnbc11p".toList, paymentHash := hash },
    textOf { hrp := "lnltc2500u".toList, paymentHash := hash },
    textOf { hrp, paymentHash := hash, rawFields := [('d', symbolsOfBytes [0xff, 0xfe])] },
    textOf { hrp, paymentHash := hash, trailing := [0#5, 0#5] }]

/-- Near misses and garbage. -/
def unknown : List Text :=
  garbage ++ damaged generatorKey.toList firstAddress (invoiceText 1) ++ brokenInvoices

/-- A `bitcoin:` URI of the first address. -/
def bitcoinUri : Text :=
  "bitcoin:".toList ++ firstAddress ++ "?amount=0.001&label=fixture".toList

/-- A `lightning:` URI of the first invoice. -/
def lightningUri : Text :=
  "lightning:".toList ++ invoiceText 0

end PaymentTarget.Samples
