import PaymentTarget.Proofs.Classifier.Search
import PaymentTarget.Send.Intent

/-! # How a text shows its network

The settings judge a destination by the network that was recorded when it was
read. The text shows the same: a segwit address by its human-readable part, a
Base58 address by its version byte, an invoice by the currency behind `ln`. So
whether a network refuses a text can be told from these marks, and a send never
goes on with an address that carries the mark of another network.
-/

namespace PaymentTarget

open Uri

namespace Address

/-- The text is an address that shows the mark of the network. -/
inductive Marked (n : Network) (t : Text) : Prop
  /-- The human-readable part, before the last `1`, is that of the network. -/
  | segwit {x : Address} {hrp rest : Text} : readSegwit t = .ok x →
      t = hrp ++ '1' :: rest → '1' ∉ rest → hrp.lower = n.segwitHrp → Marked n t
  /-- The version byte is one of the main network just for that network. -/
  | base58 {x : Address} {version : UInt8} {bytes : List UInt8} : readBase58 t = .ok x →
      Base58.decode? t = some (version :: bytes) →
      (version = 0x00 ∨ version = 0x05 ↔ n = .bitcoin) → Marked n t

variable {n : Network} {t : Text} {x : Address}

theorem isValidFor_of_readSegwit (read : readSegwit t = .ok x) :
    x.isValidFor n = true ↔ x.network.segwitHrp = n.segwitHrp := by
  obtain ⟨p, isOf, -⟩ := exists_program_of_readSegwit read
  have notBase58 : x.kind.isBase58 = false := isOf.kind.isBase58
  have notSignet : x.network ≠ .signet := isOf.network.ne_signet
  obtain ⟨network, kind⟩ := x
  simp only at notBase58
  cases network with
  | signet => exact absurd rfl notSignet
  | bitcoin | testnet | regtest => cases n <;> simp [isValidFor, Network.segwitHrp, notBase58]

theorem isValidFor_of_version {version : UInt8} (known : ofVersionByte? version = some x) :
    x.isValidFor n = true ↔ (version = 0x00 ∨ version = 0x05 ↔ n = .bitcoin) := by
  rcases ofVersionByte?_isSome known with rfl | rfl | rfl | rfl <;>
    rw [← Option.some.inj known] <;> cases n <;> decide

theorem marked_of_readSegwit (read : readSegwit t = .ok x) (valid : x.isValidFor n = true) :
    Marked n t := by
  obtain ⟨hrp, rest, whole, absent, small⟩ :=
    Text.lower_eq_append_separator_iff.mp (lower_of_readSegwit read)
  rw [isValidFor_of_readSegwit read] at valid
  exact .segwit read whole absent (small.trans valid)

theorem marked_of_readBase58 (read : readBase58 t = .ok x) (valid : x.isValidFor n = true) :
    Marked n t := by
  obtain ⟨version, bytes, decoded, -, known⟩ := readBase58_eq_ok read
  exact .base58 read decoded ((isValidFor_of_version known).mp valid)

theorem marked_iff : Marked n t ↔ ∃ x, Address.read t = .ok x ∧ x.isValidFor n = true := by
  constructor
  · intro marked
    cases marked with
    | @segwit x hrp rest read whole absent small =>
        refine ⟨x, read_eq_ok_iff.mpr (.inl read), (isValidFor_of_readSegwit read).mpr ?_⟩
        obtain ⟨before, after, whole', absent', small'⟩ :=
          Text.lower_eq_append_separator_iff.mp (lower_of_readSegwit read)
        obtain ⟨rfl, -⟩ := Text.append_separator_inj absent absent' (whole.symm.trans whole')
        rw [← small', small]
    | @base58 x version bytes read decoded shown =>
        refine ⟨x, read_eq_ok_iff.mpr (.inr read), ?_⟩
        obtain ⟨b, rest, decoded', -, known⟩ := readBase58_eq_ok read
        rw [decoded, Option.some.injEq, List.cons.injEq] at decoded'
        rw [← decoded'.1] at known
        exact (isValidFor_of_version known).mpr shown
  · rintro ⟨x, read, valid⟩
    rcases read_eq_ok_iff.mp read with segwit | base58
    · exact marked_of_readSegwit segwit valid
    · exact marked_of_readBase58 base58 valid

end Address

namespace Invoice

/-- The text is an invoice that shows the mark of the network. -/
structure Marked (n : Network) (t : Text) : Prop where
  reads : ∃ i, Invoice.read t = .ok i
  /-- Before the last `1` stand `ln`, the currency, and perhaps an amount. -/
  currency : ∃ hrp rest amount : Text, t = hrp ++ '1' :: rest ∧ '1' ∉ rest ∧
    hrp.lower = InvoiceHrp.start ++ n.currency ++ amount ∧ amount.head?.all Char.isDigit = true

variable {n : Network} {t : Text} {i : Invoice}

theorem hrp_of_read (read : Invoice.read t = .ok i) :
    ∃ hrp rest : Text, t = hrp ++ '1' :: rest ∧ '1' ∉ rest ∧
      InvoiceHrp.read hrp.lower = .ok (i.network, i.amountMsat) := by
  obtain ⟨l, writes, measured, acceptable⟩ := Layout.exists_of_read read
  obtain ⟨-, states⟩ := (Layout.read_eq_ok_iff writes measured (acceptable.fault? measured)).mp read
  have opening : ∃ rest, t.lower = l.hrp ++ '1' :: rest ∧ '1' ∉ rest :=
    ⟨_, writes.written, Symbol.separator_not_mem _⟩
  obtain ⟨hrp, rest, whole, absent, small⟩ := Text.lower_eq_append_separator_iff.mp opening
  exact ⟨hrp, rest, whole, absent, small ▸ states.price⟩

theorem marked_iff : Marked n t ↔ ∃ i, Invoice.read t = .ok i ∧ i.isValidFor n = true := by
  constructor
  · rintro ⟨⟨i, read⟩, hrp, rest, amount, whole, absent, shown, counted⟩
    refine ⟨i, read, beq_iff_eq.mpr ?_⟩
    obtain ⟨hrp', rest', whole', absent', price⟩ := hrp_of_read read
    obtain ⟨rfl, -⟩ := Text.append_separator_inj absent absent' (whole.symm.trans whole')
    obtain ⟨amount', stated, counted'⟩ := InvoiceHrp.currency_of_read price
    rw [shown] at stated
    exact (InvoiceHrp.network_unique counted counted' stated).symm
  · rintro ⟨i, read, valid⟩
    obtain rfl : i.network = n := eq_of_beq valid
    obtain ⟨hrp, rest, whole, absent, price⟩ := hrp_of_read read
    obtain ⟨amount, stated, counted⟩ := InvoiceHrp.currency_of_read price
    exact ⟨⟨i, read⟩, hrp, rest, amount, whole, absent, stated, counted⟩

end Invoice

/-- A scheme of this kind reads the text as a destination that can be paid from the network. -/
def DestinationKind.Reaches (kind : DestinationKind) (n : Network) (t : Text) : Prop :=
  ∃ (scheme : Scheme) (d : Destination),
    scheme.kind = kind ∧ scheme.read t = .ok d ∧ d.isValidFor n = true

namespace DestinationKind

variable {n : Network} {t : Text}

theorem reaches_onChainAddress_iff :
    Reaches .onChainAddress n t ↔ ∃ a, (t = a ∨ HoldsAddress a t) ∧ Address.Marked n a := by
  constructor
  · rintro ⟨scheme, d, kind, read, valid⟩
    cases scheme with
    | segwitAddress =>
        obtain ⟨x, known, rfl⟩ := map_eq_ok_iff.mp read
        exact ⟨t, .inl rfl, Address.marked_of_readSegwit known valid⟩
    | base58Address =>
        obtain ⟨x, known, rfl⟩ := map_eq_ok_iff.mp read
        exact ⟨t, .inl rfl, Address.marked_of_readBase58 known valid⟩
    | bitcoinUri =>
        obtain ⟨x, known, rfl⟩ := map_eq_ok_iff.mp read
        obtain ⟨a, holds, held⟩ := Address.readUri_eq_ok_iff.mp known
        exact ⟨a, .inr holds, Address.marked_iff.mpr ⟨x, held, valid⟩⟩
    | nodePublicKey | connectionString | invoice | lightningUri => cases kind
  · rintro ⟨a, given, marked⟩
    obtain ⟨x, read, valid⟩ := Address.marked_iff.mp marked
    rcases given with rfl | holds
    · rcases Address.read_eq_ok_iff.mp read with segwit | base58
      · exact ⟨.segwitAddress, .onChain x, rfl, map_eq_ok_iff.mpr ⟨x, segwit, rfl⟩, valid⟩
      · exact ⟨.base58Address, .onChain x, rfl, map_eq_ok_iff.mpr ⟨x, base58, rfl⟩, valid⟩
    · have uri := Address.readUri_eq_ok_iff.mpr ⟨a, holds, read⟩
      exact ⟨.bitcoinUri, .onChain x, rfl, map_eq_ok_iff.mpr ⟨x, uri, rfl⟩, valid⟩

theorem reaches_invoice_iff :
    Reaches .invoice n t ↔ ∃ i, (t = i ∨ HoldsInvoice i t) ∧ Invoice.Marked n i := by
  constructor
  · rintro ⟨scheme, d, kind, read, valid⟩
    cases scheme with
    | invoice =>
        obtain ⟨x, known, rfl⟩ := map_eq_ok_iff.mp read
        exact ⟨t, .inl rfl, Invoice.marked_iff.mpr ⟨x, known, valid⟩⟩
    | lightningUri =>
        obtain ⟨x, known, rfl⟩ := map_eq_ok_iff.mp read
        obtain ⟨i, holds, held⟩ := Invoice.readUri_eq_ok_iff.mp known
        exact ⟨i, .inr holds, Invoice.marked_iff.mpr ⟨x, held, valid⟩⟩
    | nodePublicKey | connectionString | segwitAddress | base58Address | bitcoinUri => cases kind
  · rintro ⟨i, given, marked⟩
    obtain ⟨x, read, valid⟩ := Invoice.marked_iff.mp marked
    rcases given with rfl | holds
    · exact ⟨.invoice, .invoice x, rfl, map_eq_ok_iff.mpr ⟨x, read, rfl⟩, valid⟩
    · have uri := Invoice.readUri_eq_ok_iff.mpr ⟨i, holds, read⟩
      exact ⟨.lightningUri, .invoice x, rfl, map_eq_ok_iff.mpr ⟨x, uri, rfl⟩, valid⟩

theorem reaches_nodePublicKey_iff :
    Reaches .nodePublicKey n t ↔
      (∃ key, NodeKey.read t = .ok key) ∨ ∃ target, NodeTarget.read t = .ok target := by
  constructor
  · rintro ⟨scheme, d, kind, read, -⟩
    cases scheme with
    | nodePublicKey =>
        obtain ⟨key, read, -⟩ := map_eq_ok_iff.mp read
        exact .inl ⟨key, read⟩
    | connectionString =>
        obtain ⟨target, read, -⟩ := map_eq_ok_iff.mp read
        exact .inr ⟨target, read⟩
    | segwitAddress | base58Address | bitcoinUri | invoice | lightningUri => cases kind
  · rintro (⟨key, read⟩ | ⟨target, read⟩)
    · exact ⟨.nodePublicKey, _, rfl, map_eq_ok_iff.mpr ⟨key, read, rfl⟩, rfl⟩
    · exact ⟨.connectionString, _, rfl, map_eq_ok_iff.mpr ⟨target, read, rfl⟩, rfl⟩

end DestinationKind

namespace Settings

theorem exists_resolve_withNetwork_iff {n : Network} {t : Text} (sized : sizeFailure? t = none) :
    (∃ m, (({} : Settings).withNetwork n).resolve t = .ok m) ↔
      ∃ kind : DestinationKind, kind.Reaches n t := by
  constructor
  · rintro ⟨m, found⟩
    obtain ⟨-, read, -, valid⟩ := resolve_eq_ok_iff.mp found
    exact ⟨m.scheme.kind, m.scheme, m.destination, rfl, read, valid n rfl⟩
  · rintro ⟨-, scheme, d, -, read, valid⟩
    refine ⟨⟨scheme, d⟩, resolve_eq_ok_iff.mpr ⟨sized, read, by simp [isEnabled, withNetwork], ?_⟩⟩
    rintro expected ⟨⟩
    exact valid

theorem exists_match_of_decide {s : Settings} {t destination : Text} {kind : PayableKind}
    (decided : s.decide t = .proceed destination kind) :
    ∃ m, s.resolve t = .ok m ∧ m.scheme.kind = kind.toKind := by
  have classified : s.classify t = kind.toKind := by
    unfold Settings.decide at decided
    split at decided
    · cases decided
    · split at decided <;> cases decided
      next classified => exact classified
      next classified => exact classified
  unfold classify at classified
  split at classified
  next m found => exact ⟨m, found, classified⟩
  · cases kind <;> cases classified

/-- A network accepts just the texts that show its mark, and a send never goes on with an address
that shows the mark of another. -/
theorem accepted_iff_marked :
    (∀ (n : Network) (t : Text), (∃ m, ({} : Settings).resolve t = .ok m) →
      ((∃ m, (({} : Settings).withNetwork n).resolve t = .ok m) ↔
        (∃ a, (t = a ∨ HoldsAddress a t) ∧ Address.Marked n a) ∨
        (∃ i, (t = i ∨ HoldsInvoice i t) ∧ Invoice.Marked n i) ∨
        (∃ key, NodeKey.read t = .ok key) ∨ ∃ target, NodeTarget.read t = .ok target)) ∧
    ∀ (s : Settings) (n : Network) (t destination : Text), s.network = some n →
      s.decide t = .proceed destination .onChainAddress →
        ∃ a, (t = a ∨ HoldsAddress a t) ∧ Address.Marked n a := by
  constructor
  · rintro n t ⟨m, found⟩
    obtain ⟨sized, -⟩ := resolve_eq_ok_iff.mp found
    rw [exists_resolve_withNetwork_iff sized, ← DestinationKind.reaches_onChainAddress_iff,
      ← DestinationKind.reaches_invoice_iff, ← DestinationKind.reaches_nodePublicKey_iff]
    constructor
    · rintro ⟨kind, reaches⟩
      cases kind with
      | onChainAddress => exact .inl reaches
      | invoice => exact .inr (.inl reaches)
      | nodePublicKey => exact .inr (.inr reaches)
      | unknown =>
          obtain ⟨scheme, -, kind, -⟩ := reaches
          cases scheme <;> cases kind
    · rintro (address | invoice | node)
      · exact ⟨_, address⟩
      · exact ⟨_, invoice⟩
      · exact ⟨_, node⟩
  · intro s n t destination wanted decided
    obtain ⟨m, found, kind⟩ := exists_match_of_decide decided
    obtain ⟨-, read, -, valid⟩ := resolve_eq_ok_iff.mp found
    exact DestinationKind.reaches_onChainAddress_iff.mp
      ⟨m.scheme, m.destination, kind, read, valid n wanted⟩

theorem accepted_iff_marked_of_uri :
    let t := "Bitcoin:TB1QW508D6QEJXTDG4Y5R3ZARVARY0C5XW7KXPJZSX?amount=1".toList
    let s : Settings := { network := some .signet, allowConnectionStrings := false }
    (∃ m, ({} : Settings).resolve t = .ok m) ∧
      (¬ ∃ a, (t = a ∨ HoldsAddress a t) ∧ Address.Marked .regtest a) ∧
      s.network = some .signet ∧ s.decide t = .proceed t .onChainAddress ∧
      ∃ a, (t = a ∨ HoldsAddress a t) ∧ Address.Marked .signet a := by
  intro t s
  have found : ({} : Settings).resolve t = .ok ⟨.bitcoinUri, .onChain ⟨.testnet, .p2wpkh⟩⟩ := by
    decide +kernel
  have refused : (({} : Settings).withNetwork .regtest).resolve t =
      .error (.wrongNetwork .regtest .testnet) := by
    decide +kernel
  have decided : s.decide t = .proceed t .onChainAddress := by
    decide +kernel
  obtain ⟨accepted, sent⟩ := accepted_iff_marked
  refine ⟨⟨_, found⟩, ?_, rfl, decided, sent s .signet t t rfl decided⟩
  intro marked
  obtain ⟨m, restricted⟩ := (accepted .regtest t ⟨_, found⟩).mpr (.inl marked)
  rw [refused] at restricted
  cases restricted

end Settings

end PaymentTarget
