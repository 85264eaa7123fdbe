import PaymentTarget.Proofs.Classifier.Search

/-! # URIs and the bare forms in them

No scheme but its own reads a URI, and that one reads what the URI holds. A
search for a URI therefore ends as one for the bare address or the bare invoice
does, apart from the refusals of texts that are no destination at all.
-/

namespace PaymentTarget

open Uri

section Held

variable {a i t : Text}

theorem Uri.HoldsAddress.size_le (holds : HoldsAddress a t) : a.size ≤ t.size := by
  cases holds with
  | @plain head => exact Text.size_le_of_infix ⟨head ++ [':'], [], by simp⟩
  | @parameters head parameters =>
      exact Text.size_le_of_infix ⟨head ++ [':'], '?' :: parameters, by simp⟩

theorem Uri.HoldsInvoice.size_le (holds : HoldsInvoice i t) : i.size ≤ t.size := by
  cases holds with
  | @plain head => exact Text.size_le_of_infix ⟨head ++ [':'], [], by simp⟩

theorem Uri.HoldsAddress.eq_bitcoinUri (holds : HoldsAddress a t) {scheme : Scheme}
    {d : Destination} (read : scheme.read t = .ok d) : scheme = .bitcoinUri := by
  obtain ⟨rest, opening⟩ := holds.lower
  have only := Scheme.ofOpening?_of_read read
  rw [Scheme.ofOpening?, opening] at only
  exact (Option.some.inj only).symm

theorem Uri.HoldsInvoice.eq_lightningUri (holds : HoldsInvoice i t) {scheme : Scheme}
    {d : Destination} (read : scheme.read t = .ok d) : scheme = .lightningUri := by
  obtain ⟨rest, opening⟩ := holds.lower
  have only := Scheme.ofOpening?_of_read read
  rw [Scheme.ofOpening?, opening] at only
  exact (Option.some.inj only).symm

end Held

namespace Settings

variable {s : Settings} {t : Text}

theorem map_restrict {m : Match} (enabled : s.isEnabled m.scheme = true) :
    (s.restrict m).map Match.destination = s.checkNetwork m.destination := by
  rw [restrict, if_pos enabled]
  cases checked : s.checkNetwork m.destination with
  | ok d => exact congrArg Except.ok (checkNetwork_eq_ok checked).symm
  | error failure => rfl

theorem parse_of_read {scheme : Scheme} {d : Destination} (read : scheme.read t = .ok d)
    (enabled : s.isEnabled scheme = true) (sized : sizeFailure? t = none) :
    s.parse t = s.checkNetwork d := by
  rw [parse, resolve, resolveIn_of_read read sized (Scheme.mem_order scheme)]
  exact map_restrict enabled

/-- What a text comes to that one scheme alone can read. -/
theorem resolve_of_only {scheme : Scheme}
    (only : ∀ (other : Scheme) (d : Destination), other.read t = .ok d → other = scheme)
    (sized : sizeFailure? t = none) :
    s.resolve t =
      match scheme.read t with
      | .ok destination => s.restrict { scheme, destination }
      | .error _ => .error .unrecognized := by
  cases read : scheme.read t with
  | ok d => exact resolveIn_of_read read sized (Scheme.mem_order scheme)
  | error failure =>
      apply resolveIn_of_unread _ sized
      intro other d also
      rw [only other d also, read] at also
      cases also

section Uris

variable {a i uri : Text}

theorem resolve_of_holdsAddress (holds : HoldsAddress a uri) (short : uri.size ≤ Text.maxSize) :
    s.resolve uri =
      match Address.read a with
      | .ok x => s.restrict { scheme := .bitcoinUri, destination := .onChain x }
      | .error _ => .error .unrecognized := by
  have nonempty : uri ≠ [] := by
    cases holds <;> simp
  rw [resolve_of_only (fun _ _ => holds.eq_bitcoinUri)
    (sizeFailure?_eq_none_iff.mpr ⟨nonempty, short⟩), Scheme.read, Address.readUri_of_holds holds]
  cases Address.read a <;> rfl

theorem resolve_of_holdsInvoice (holds : HoldsInvoice i uri) (short : uri.size ≤ Text.maxSize) :
    s.resolve uri =
      match Invoice.read i with
      | .ok y => s.restrict { scheme := .lightningUri, destination := .invoice y }
      | .error _ => .error .unrecognized := by
  have nonempty : uri ≠ [] := by
    cases holds
    simp
  rw [resolve_of_only (fun _ _ => holds.eq_lightningUri)
    (sizeFailure?_eq_none_iff.mpr ⟨nonempty, short⟩), Scheme.read, Invoice.readUri_of_holds holds]
  cases Invoice.read i <;> rfl

theorem parse_of_holdsAddress (allowed : s.allowUriSchemes = true) (holds : HoldsAddress a uri)
    (short : uri.size ≤ Text.maxSize) :
    s.parse uri =
      match Address.read a with
      | .ok x => s.checkNetwork (.onChain x)
      | .error _ => .error .unrecognized := by
  rw [parse, resolve_of_holdsAddress holds short]
  cases Address.read a with
  | ok x => exact map_restrict allowed
  | error failure => rfl

theorem parse_of_holdsInvoice (allowed : s.allowUriSchemes = true) (holds : HoldsInvoice i uri)
    (short : uri.size ≤ Text.maxSize) :
    s.parse uri =
      match Invoice.read i with
      | .ok y => s.checkNetwork (.invoice y)
      | .error _ => .error .unrecognized := by
  rw [parse, resolve_of_holdsInvoice holds short]
  cases Invoice.read i with
  | ok y => exact map_restrict allowed
  | error failure => rfl

end Uris

theorem parse_of_address {a : Text} {x : Address}
    (read : Address.readSegwit a = .ok x ∨ Address.readBase58 a = .ok x)
    (short : a.size ≤ Text.maxSize) : s.parse a = s.checkNetwork (.onChain x) := by
  rcases read with segwit | base58
  · have nonempty := List.ne_nil_of_mem (Address.separator_of_readSegwit segwit).1
    have read : Scheme.segwitAddress.read a = .ok (.onChain x) :=
      map_eq_ok_iff.mpr ⟨x, segwit, rfl⟩
    exact parse_of_read read rfl (sizeFailure?_eq_none_iff.mpr ⟨nonempty, short⟩)
  · obtain ⟨c, rest, rfl, -⟩ := Address.cons_of_readBase58 base58
    have read : Scheme.base58Address.read (c :: rest) = .ok (.onChain x) :=
      map_eq_ok_iff.mpr ⟨x, base58, rfl⟩
    exact parse_of_read read rfl (sizeFailure?_eq_none_iff.mpr ⟨List.cons_ne_nil c rest, short⟩)

theorem parse_of_invoice {i : Text} {y : Invoice} (read : Invoice.read i = .ok y)
    (short : i.size ≤ Text.maxSize) : s.parse i = s.checkNetwork (.invoice y) := by
  have nonempty : i ≠ [] := by
    rintro rfl
    cases read
  have known : Scheme.invoice.read i = .ok (.invoice y) := map_eq_ok_iff.mpr ⟨y, read, rfl⟩
  exact parse_of_read known rfl (sizeFailure?_eq_none_iff.mpr ⟨nonempty, short⟩)

theorem checkNetwork_eq_or (d : Destination) :
    s.checkNetwork d = .ok d ∨ ∃ expected found, s.network = some expected ∧
      d.network = some found ∧ s.checkNetwork d = .error (.wrongNetwork expected found) := by
  cases checked : s.checkNetwork d with
  | ok e => exact .inl (congrArg Except.ok (checkNetwork_eq_ok checked))
  | error failure =>
      obtain ⟨expected, found, wanted, bound, -, rfl⟩ := checkNetwork_eq_error checked
      exact .inr ⟨expected, found, wanted, bound, rfl⟩

/-- A URI comes to what the address or the invoice in it comes to by itself; one that holds neither
is not recognized. -/
theorem parse_uri_eq_bare :
    (∀ (a : Text) (x : Address),
      Address.read a = .ok x ↔ Address.readSegwit a = .ok x ∨ Address.readBase58 a = .ok x) ∧
    (∀ (s : Settings) (a uri : Text), s.allowUriSchemes = true → HoldsAddress a uri →
      uri.size ≤ Text.maxSize →
        (∀ x, Address.readSegwit a = .ok x ∨ Address.readBase58 a = .ok x →
          s.parse uri = s.parse a ∧
            (s.parse a = .ok (.onChain x) ∨ ∃ expected, s.network = some expected ∧
              s.parse a = .error (.wrongNetwork expected x.network))) ∧
        ((∀ x, Address.readSegwit a ≠ .ok x ∧ Address.readBase58 a ≠ .ok x) →
          s.parse uri = .error .unrecognized)) ∧
    ∀ (s : Settings) (i uri : Text), s.allowUriSchemes = true → HoldsInvoice i uri →
      uri.size ≤ Text.maxSize →
        (∀ y, s.parse uri = .ok (.invoice y) ↔ s.attempt .invoice i = .ok (.invoice y)) ∧
        (∀ expected found, s.parse uri = .error (.wrongNetwork expected found) ↔
          s.attempt .invoice i = .error (.wrongNetwork expected found)) ∧
        (∀ y, Invoice.read i = .ok y → s.parse uri = s.parse i) ∧
        ((∀ y, Invoice.read i ≠ .ok y) → s.parse uri = .error .unrecognized) := by
  refine ⟨fun a x => Address.read_eq_ok_iff, ?_, ?_⟩
  · intro s a uri allowed holds short
    have held := parse_of_holdsAddress allowed holds short
    constructor
    · intro x read
      have bare := parse_of_address (s := s) read (holds.size_le.trans short)
      rw [Address.read_eq_ok_iff.mpr read] at held
      refine ⟨held.trans bare.symm, ?_⟩
      rw [bare]
      rcases s.checkNetwork_eq_or (.onChain x) with accepted | ⟨expected, _, wanted, ⟨⟩, refused⟩
      · exact .inl accepted
      · exact .inr ⟨expected, wanted, refused⟩
    · intro unread
      cases read : Address.read a with
      | ok x =>
          rcases Address.read_eq_ok_iff.mp read with segwit | base58
          · exact absurd segwit (unread x).1
          · exact absurd base58 (unread x).2
      | error failure => rw [held, read]
  · intro s i uri allowed holds short
    have held := parse_of_holdsInvoice allowed holds short
    cases read : Invoice.read i with
    | ok y =>
        have bare := parse_of_invoice (s := s) read (holds.size_le.trans short)
        have attempted : s.attempt .invoice i = s.checkNetwork (.invoice y) := by
          simp only [attempt, Scheme.read, read, Except.map]
        rw [read] at held
        rw [held, attempted, bare]
        refine ⟨fun _ => .rfl, fun _ _ => .rfl, fun _ _ => rfl, ?_⟩
        intro unread
        exact absurd rfl (unread y)
    | error failure =>
        have quiet := Invoice.isWrongNetwork_of_read read
        have attempted : s.attempt .invoice i = .error failure := by
          simp only [attempt, Scheme.read, read, Except.map]
        rw [read] at held
        rw [held, attempted]
        refine ⟨by simp, ?_, by simp, by simp⟩
        -- No reader blames the network, so neither side holds.
        intro expected found
        refine ⟨by simp, ?_⟩
        rintro ⟨⟩
        cases quiet

theorem parse_uri_eq_bare_of_nested :
    let a : Text := "1A1zP1eP5QGefi2DMPTfTL5SLmv7DivfNa".toList
    let i : Text :=
      ("lnbcrt1pvjluezpp5qqqqqqqqqqqqqqqqqqqqqqqqqqqqqqqqqqqqqqqqqqqqqqqqqqqqzyg3zyg3zyg" ++
        "3zyg3zyg3zyg3zyg3zyg3zyg3zyg3zyg3zyg3zyg3zyg3zyg3zyg3zyg3zyg3zyg3zyg3zyg3zyg3zyg" ++
        "3zyg3zyg3zygqfdfsrw").toList
    let nested : Text := "BitCoin".toList ++ ':' :: (a ++ '?' :: "a:b?c".toList)
    let twice : Text := "bitcoin".toList ++ ':' :: ':' :: a
    let lightning : Text := "LIGHTNING".toList ++ ':' :: i
    let s : Settings := { network := some .testnet, allowConnectionStrings := false }
    Address.read a = .ok ⟨.bitcoin, .p2pkh⟩ ∧
      s.parse nested = .error (.wrongNetwork .testnet .bitcoin) ∧
      s.parse nested = s.parse a ∧
      s.parse twice = .error .unrecognized ∧
      s.parse lightning = .error (.wrongNetwork .testnet .regtest) ∧
      s.parse lightning = s.parse i ∧
      s.parse ("lightning".toList ++ [':']) = .error .unrecognized := by
  intro a i nested twice lightning s
  obtain ⟨known, addresses, invoices⟩ := parse_uri_eq_bare
  have read : Address.readBase58 a = .ok ⟨.bitcoin, .p2pkh⟩ := by decide +kernel
  have wrong : s.parse a = .error (.wrongNetwork .testnet .bitcoin) :=
    parse_of_address (.inr read) (by decide +kernel)
  have holds : HoldsAddress a nested := .parameters (by decide) (by decide +kernel)
  have address := addresses s a nested rfl holds (by decide +kernel)
  have colon : Address.readSegwit (':' :: a) = .error (.bech32 .noProgram) ∧
      Address.readBase58 (':' :: a) = .error (.address .base58Character) := by
    decide +kernel
  have again := addresses s (':' :: a) twice rfl (.plain (by decide) (by decide +kernel))
    (by decide +kernel)
  have asked : s.attempt .invoice i = .error (.wrongNetwork .testnet .regtest) := by decide +kernel
  have invoice := invoices s i lightning rfl (.plain (by decide)) (by decide +kernel)
  have empty := invoices s [] ("lightning".toList ++ [':']) rfl (.plain (by decide)) (by decide)
  obtain ⟨y, accepted⟩ : ∃ y, Invoice.read i = .ok y := by
    cases unread : Invoice.read i with
    | ok y => exact ⟨y, rfl⟩
    | error failure =>
        have refused := invoice.2.2.2 (by simp [unread])
        rw [(invoice.2.1 _ _).mpr asked] at refused
        cases refused
  refine ⟨(known a _).mpr (.inr read), (address.1 _ (.inr read)).1.trans wrong,
    (address.1 _ (.inr read)).1, again.2 ?_, (invoice.2.1 _ _).mpr asked, invoice.2.2.1 y accepted,
    empty.2.2.2 ?_⟩
  · intro x
    simp [colon]
  · intro y
    simp [Invoice.read]

end Settings

end PaymentTarget
