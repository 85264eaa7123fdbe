import PaymentTarget.Classifier
import PaymentTarget.Proofs.Classifier.Opening
import PaymentTarget.Proofs.Invoice.Layout

/-! # What a search comes to

Because one scheme at most reads a text, a search has one destination to find
or to refuse, whatever the order in which it tries the schemes. All other
schemes refuse for reasons of their own and leave no trace in the outcome: none
of them ever blames the network. What the settings do is therefore decided on
the destination alone, after it has been read.
-/

namespace PaymentTarget

section Refusals

variable {t : Text} {failure : Failure}

theorem Failure.isWrongNetwork_of_isContent (content : failure.isContent = true) :
    failure.isWrongNetwork = false := by
  cases failure <;> first | rfl | cases content

theorem NodeKey.isWrongNetwork_of_read (refused : NodeKey.read t = .error failure) :
    failure.isWrongNetwork = false := by
  unfold NodeKey.read at refused
  split at refused
  · cases refused
    rfl
  · split at refused
    · cases refused
      rfl
    · exact Failure.isWrongNetwork_of_isContent (NodeKey.isContent_of_ofBytes refused)

theorem NodeTarget.isWrongNetwork_of_read (refused : NodeTarget.read t = .error failure) :
    failure.isWrongNetwork = false := by
  unfold NodeTarget.read at refused
  split at refused
  · cases refused
    rfl
  · split at refused
    next unknown =>
      rw [← Except.error.inj refused]
      exact NodeKey.isWrongNetwork_of_read unknown
    · split at refused
      · cases refused
        rfl
      · cases refused

theorem Address.isWrongNetwork_of_readSegwit (refused : Address.readSegwit t = .error failure) :
    failure.isWrongNetwork = false := by
  unfold Address.readSegwit at refused
  split at refused
  · cases refused
    rfl
  · split at refused
    · cases refused
      rfl
    · split at refused
      · cases refused
        rfl
      · split at refused
        · cases refused
          rfl
        · cases refused

theorem Address.isWrongNetwork_of_readBase58 (refused : Address.readBase58 t = .error failure) :
    failure.isWrongNetwork = false := by
  unfold Address.readBase58 at refused
  split at refused
  · cases refused
    rfl
  · split at refused
    · cases refused
      rfl
    · simp only at refused
      split at refused
      · cases refused
        rfl
      · unfold Address.ofPayload at refused
        split at refused
        · cases refused
          rfl
        · split at refused
          · cases refused
            rfl
          · cases refused

theorem Address.isWrongNetwork_of_readUri (refused : Address.readUri t = .error failure) :
    failure.isWrongNetwork = false := by
  unfold Address.readUri at refused
  split at refused
  · cases refused
    rfl
  · unfold Address.read at refused
    split at refused
    · cases refused
      rfl
    · split at refused
      · split at refused
        · cases refused
        · exact Address.isWrongNetwork_of_readBase58 refused
      · exact Address.isWrongNetwork_of_readBase58 refused

theorem Invoice.isWrongNetwork_of_read (refused : Invoice.read t = .error failure) :
    failure.isWrongNetwork = false := by
  unfold Invoice.read at refused
  split at refused
  · cases refused
    rfl
  · split at refused
    · cases refused
      rfl
    · split at refused
      · cases refused
        rfl
      · split at refused
        · cases refused
          rfl
        · exact Failure.isWrongNetwork_of_isContent (Invoice.isContent_of_ofWord refused)

theorem Invoice.isWrongNetwork_of_readUri (refused : Invoice.readUri t = .error failure) :
    failure.isWrongNetwork = false := by
  unfold Invoice.readUri at refused
  split at refused
  · cases refused
    rfl
  · exact Invoice.isWrongNetwork_of_read refused

/-- No reader blames the network: only the settings do. -/
theorem Scheme.isWrongNetwork_of_read {scheme : Scheme}
    (refused : scheme.read t = .error failure) : failure.isWrongNetwork = false := by
  cases scheme with
  | nodePublicKey => exact NodeKey.isWrongNetwork_of_read (map_eq_error_iff.mp refused)
  | connectionString => exact NodeTarget.isWrongNetwork_of_read (map_eq_error_iff.mp refused)
  | segwitAddress => exact Address.isWrongNetwork_of_readSegwit (map_eq_error_iff.mp refused)
  | base58Address => exact Address.isWrongNetwork_of_readBase58 (map_eq_error_iff.mp refused)
  | bitcoinUri => exact Address.isWrongNetwork_of_readUri (map_eq_error_iff.mp refused)
  | invoice => exact Invoice.isWrongNetwork_of_read (map_eq_error_iff.mp refused)
  | lightningUri => exact Invoice.isWrongNetwork_of_readUri (map_eq_error_iff.mp refused)

end Refusals

theorem Scheme.mem_order (scheme : Scheme) : scheme ∈ Scheme.order := by
  cases scheme <;> simp [order]

/-- A refusal that does not blame the network leaves the outcome as it is. -/
theorem Search.outcome_cons (later : Search) {refusal : Refusal}
    (quiet : refusal.failure.isWrongNetwork = false) :
    ({ later with refusals := refusal :: later.refusals } : Search).outcome = later.outcome := by
  simp only [outcome, List.find?_cons, quiet]

namespace Settings

variable {s : Settings} {t : Text}

/-- What the settings make of a match that was found without them. -/
def restrict (s : Settings) (m : Match) : Except Failure Match :=
  if s.isEnabled m.scheme then
    match s.checkNetwork m.destination with
    | .ok _ => .ok m
    | .error failure => .error failure
  else .error .unrecognized

theorem sizeFailure?_eq_none_iff : sizeFailure? t = none ↔ t ≠ [] ∧ t.size ≤ Text.maxSize := by
  by_cases empty : t = []
  · simp [sizeFailure?, empty]
  · by_cases long : Text.maxSize < t.size
    · simp [sizeFailure?, empty, long]
    · simp [sizeFailure?, empty, long, Nat.le_of_not_lt long]

theorem checkNetwork_eq_ok {d e : Destination} (checked : s.checkNetwork d = .ok e) : e = d := by
  unfold checkNetwork at checked
  split at checked
  · split at checked
    · exact (Except.ok.inj checked).symm
    · cases checked
  · exact (Except.ok.inj checked).symm

theorem checkNetwork_of_valid {d : Destination}
    (valid : ∀ expected, s.network = some expected → d.isValidFor expected = true) :
    s.checkNetwork d = .ok d := by
  unfold checkNetwork
  split
  next expected found wanted _ => rw [if_pos (valid expected wanted)]
  · rfl

theorem checkNetwork_of_invalid {d : Destination} {expected : Network}
    (wanted : s.network = some expected) (invalid : d.isValidFor expected = false) :
    ∃ found, d.network = some found ∧ s.checkNetwork d = .error (.wrongNetwork expected found) := by
  cases d with
  | onChain address =>
      exact ⟨address.network, rfl, by simp [checkNetwork, wanted, Destination.network, invalid]⟩
  | node target => cases invalid
  | invoice i => exact ⟨i.network, rfl, by simp [checkNetwork, wanted, Destination.network, invalid]⟩

theorem valid_of_checkNetwork {d e : Destination} (checked : s.checkNetwork d = .ok e)
    (expected : Network) (wanted : s.network = some expected) : d.isValidFor expected = true := by
  by_contra invalid
  obtain ⟨found, -, refused⟩ := checkNetwork_of_invalid wanted (Bool.not_eq_true _ ▸ invalid)
  rw [refused] at checked
  cases checked

theorem checkNetwork_eq_error {d : Destination} {failure : Failure}
    (refused : s.checkNetwork d = .error failure) :
    ∃ expected found, s.network = some expected ∧ d.network = some found ∧
      d.isValidFor expected = false ∧ failure = .wrongNetwork expected found := by
  unfold checkNetwork at refused
  split at refused
  next expected found wanted bound =>
    split at refused
    · cases refused
    next invalid =>
      exact ⟨expected, found, wanted, bound, Bool.not_eq_true _ ▸ invalid,
        (Except.error.inj refused).symm⟩
  · cases refused

theorem found_eq_none {order : List Scheme}
    (refused : ∀ scheme ∈ order, ∀ d, s.attempt scheme t ≠ .ok d) :
    (s.search t order).found = none := by
  induction order with
  | nil => rfl
  | cons scheme rest ih =>
      obtain ⟨first, later⟩ := List.forall_mem_cons.mp refused
      rw [search]
      split
      · split
        next d attempt => exact absurd attempt (first d)
        · exact ih later
      · exact ih later

/-- A scheme that cannot be tried, or does not read the text, adds nothing to the outcome. -/
theorem outcome_skip {scheme : Scheme} (rest : List Scheme)
    (unread : s.isEnabled scheme = true → ∀ d, scheme.read t ≠ .ok d) :
    (s.search t (scheme :: rest)).outcome = (s.search t rest).outcome := by
  rw [search]
  split
  next enabled =>
    cases read : scheme.read t with
    | ok d => exact absurd read (unread enabled d)
    | error failure =>
        simp only [attempt, read]
        exact Search.outcome_cons _ (Scheme.isWrongNetwork_of_read read)
  · rfl

theorem outcome_of_unread {order : List Scheme}
    (unread : ∀ scheme ∈ order, s.isEnabled scheme = true → ∀ d, scheme.read t ≠ .ok d) :
    (s.search t order).outcome = .error .unrecognized := by
  induction order with
  | nil => rfl
  | cons scheme rest ih =>
      obtain ⟨first, later⟩ := List.forall_mem_cons.mp unread
      rw [outcome_skip rest first, ih later]

theorem outcome_of_read {scheme : Scheme} {d : Destination} (read : scheme.read t = .ok d)
    {order : List Scheme} (member : scheme ∈ order) :
    (s.search t order).outcome = s.restrict { scheme, destination := d } := by
  have others : ∀ other, other ≠ scheme → ∀ e, other.read t ≠ .ok e := by
    intro other different e also
    exact different (Scheme.eq_of_read also read)
  by_cases enabled : s.isEnabled scheme = true
  · induction order with
    | nil => cases member
    | cons first rest ih =>
        by_cases same : first = scheme
        · subst same
          cases checked : s.checkNetwork d with
          | ok e =>
              obtain rfl := checkNetwork_eq_ok checked
              simp only [search, enabled, attempt, read, checked, restrict, if_true, Search.outcome]
          | error failure =>
              -- A repetition of the scheme is refused once more, so that nothing is found later.
              have nothing : (s.search t rest).found = none := by
                apply found_eq_none
                intro other _ e
                by_cases again : other = first
                · simp [attempt, again, read, checked]
                · unfold attempt
                  cases also : other.read t with
                  | ok f => exact absurd also (others other again f)
                  | error => simp
              obtain ⟨expected, found, -, -, -, rfl⟩ := checkNetwork_eq_error checked
              simp [search, enabled, attempt, read, checked, restrict, Search.outcome, nothing,
                Failure.isWrongNetwork]
        · rw [outcome_skip rest fun _ => others first same]
          exact ih (List.mem_of_ne_of_mem (Ne.symm same) member)
  · rw [restrict, if_neg enabled]
    apply outcome_of_unread
    intro other _ tried e also
    exact enabled (Scheme.eq_of_read also read ▸ tried)

theorem resolveIn_of_read {scheme : Scheme} {d : Destination} (read : scheme.read t = .ok d)
    (sized : sizeFailure? t = none) {order : List Scheme} (member : scheme ∈ order) :
    s.resolveIn order t = s.restrict { scheme, destination := d } := by
  rw [resolveIn, sized]
  exact outcome_of_read read member

theorem resolveIn_of_unread (unread : ∀ scheme d, Scheme.read scheme t ≠ .ok d)
    (sized : sizeFailure? t = none) (order : List Scheme) :
    s.resolveIn order t = .error .unrecognized := by
  rw [resolveIn, sized]
  exact outcome_of_unread fun scheme _ _ d => unread scheme d

theorem restrict_eq_ok {m n : Match} (restricted : s.restrict m = .ok n) : m = n := by
  unfold restrict at restricted
  split at restricted
  · split at restricted
    · exact Except.ok.inj restricted
    · cases restricted
  · cases restricted

theorem restrict_default (m : Match) : ({} : Settings).restrict m = .ok m := by
  have enabled : ({} : Settings).isEnabled m.scheme = true := by
    simp [isEnabled]
  simp only [restrict, enabled, checkNetwork, if_true]

/-- What is accepted: a text of no excessive size that an enabled scheme reads as a destination
of the network. -/
theorem resolve_eq_ok_iff {m : Match} :
    s.resolve t = .ok m ↔
      sizeFailure? t = none ∧ m.scheme.read t = .ok m.destination ∧
        s.isEnabled m.scheme = true ∧
        ∀ expected, s.network = some expected → m.destination.isValidFor expected = true := by
  constructor
  · intro found
    cases sized : sizeFailure? t with
    | some failure =>
        rw [resolve, resolveIn, sized] at found
        cases found
    | none =>
        by_cases someReads : ∃ (scheme : Scheme) (d : Destination), scheme.read t = .ok d
        · obtain ⟨scheme, d, read⟩ := someReads
          rw [resolve, resolveIn_of_read read sized (Scheme.mem_order scheme)] at found
          obtain rfl := restrict_eq_ok found
          unfold restrict at found
          split at found
          next enabled =>
            split at found
            next checked => exact ⟨rfl, read, enabled, valid_of_checkNetwork checked⟩
            · cases found
          · cases found
        · simp only [not_exists] at someReads
          rw [resolve, resolveIn_of_unread someReads sized] at found
          cases found
  · rintro ⟨sized, read, enabled, valid⟩
    rw [resolve, resolveIn_of_read read sized (Scheme.mem_order m.scheme), restrict, if_pos enabled,
      checkNetwork_of_valid valid]

/-- Settings restrict what was found without them, in whatever order it is looked for. -/
theorem resolveIn_eq_bind (s : Settings) (t : Text) {order : List Scheme}
    (complete : ∀ scheme, scheme ∈ order) :
    s.resolveIn order t = ({} : Settings).resolve t >>= s.restrict := by
  cases sized : sizeFailure? t with
  | some failure =>
      simp only [resolve, resolveIn, sized]
      rfl
  | none =>
      by_cases someReads : ∃ (scheme : Scheme) (d : Destination), scheme.read t = .ok d
      · obtain ⟨scheme, d, read⟩ := someReads
        rw [resolve, resolveIn_of_read read sized (complete scheme),
          resolveIn_of_read read sized (Scheme.mem_order scheme), restrict_default]
        rfl
      · simp only [not_exists] at someReads
        rw [resolve, resolveIn_of_unread someReads sized, resolveIn_of_unread someReads sized]
        rfl

/-- Two schemes never read one text, so the order in which they are tried does not matter. -/
theorem read_unique_and_resolveIn_perm (t : Text) :
    (∀ (a b : Scheme) (d e : Destination), a.read t = .ok d → b.read t = .ok e → a = b) ∧
      ∀ (s : Settings) (order : List Scheme), order.Perm Scheme.order →
        s.resolveIn order t = s.resolve t := by
  constructor
  · intro a b d e first second
    exact Scheme.eq_of_read first second
  · intro s order perm
    rw [resolve, resolveIn_eq_bind s t Scheme.mem_order,
      resolveIn_eq_bind s t fun scheme => perm.mem_iff.mpr (Scheme.mem_order scheme)]

theorem read_unique_and_resolveIn_perm_of_address :
    let t := "BC1QW508D6QEJXTDG4Y5R3ZARVARY0C5XW7KV8F3T4".toList
    let s : Settings := { network := some .regtest, allowUriSchemes := false }
    ∃ d, Scheme.segwitAddress.read t = .ok d ∧
      (∀ scheme e, scheme.read t = .ok e → Scheme.segwitAddress = scheme) ∧
      Scheme.order.reverse.Perm Scheme.order ∧
      s.resolveIn Scheme.order.reverse t = s.resolve t := by
  intro t s
  obtain ⟨unique, unordered⟩ := read_unique_and_resolveIn_perm t
  have read : Scheme.segwitAddress.read t = .ok (.onChain ⟨.bitcoin, .p2wpkh⟩) := by
    decide +kernel
  have perm : Scheme.order.reverse.Perm Scheme.order := List.reverse_perm _
  exact ⟨_, read, fun scheme e also => unique _ scheme _ e read also, perm, unordered s _ perm⟩

/-- Settings only filter what is found without them. -/
theorem resolve_filters_default (s : Settings) (t : Text) :
    (∀ failure, ({} : Settings).resolve t = .error failure → s.resolve t = .error failure) ∧
    (∀ m : Match, ({} : Settings).resolve t = .ok m →
      (s.isEnabled m.scheme = true →
        (s.network = none ∨ (∃ target, m.destination = .node target) ∨
          ∃ expected, s.network = some expected ∧ m.destination.isValidFor expected = true) →
        s.resolve t = .ok m) ∧
      (s.isEnabled m.scheme = true → ∀ expected, s.network = some expected →
        m.destination.isValidFor expected = false →
        ∃ found, m.destination.network = some found ∧
          s.resolve t = .error (.wrongNetwork expected found)) ∧
      (s.isEnabled m.scheme = false → s.resolve t = .error .unrecognized)) ∧
    ∀ m : Match, s.resolve t = .ok m → ({} : Settings).resolve t = .ok m := by
  have filter : s.resolve t = ({} : Settings).resolve t >>= s.restrict :=
    resolveIn_eq_bind s t Scheme.mem_order
  refine ⟨?_, ?_, ?_⟩
  · intro failure refused
    rw [filter, refused]
    rfl
  · intro m found
    have restricted : s.resolve t = s.restrict m := by
      rw [filter, found]
      rfl
    refine ⟨?_, ?_, ?_⟩
    · intro enabled payable
      rw [restricted, restrict, if_pos enabled, checkNetwork_of_valid]
      intro expected wanted
      rcases payable with free | ⟨target, node⟩ | ⟨network, same, valid⟩
      · rw [free] at wanted
        cases wanted
      · rw [node]
        rfl
      · rw [same] at wanted
        rwa [← Option.some.inj wanted]
    · intro enabled expected wanted invalid
      rw [restricted, restrict, if_pos enabled]
      obtain ⟨found, bound, refused⟩ := checkNetwork_of_invalid wanted invalid
      exact ⟨found, bound, by rw [refused]⟩
    · intro disabled
      rw [restricted, restrict, if_neg (by simp [disabled])]
  · intro m accepted
    rw [filter, bind_eq_ok_iff] at accepted
    obtain ⟨n, found, restricted⟩ := accepted
    rw [found, restrict_eq_ok restricted]

theorem resolve_filters_default_of_uri :
    let t := "Bitcoin:tb1qw508d6qejxtdg4y5r3zarvary0c5xw7kxpjzsx?amount=1".toList
    let m : Match := ⟨.bitcoinUri, .onChain ⟨.testnet, .p2wpkh⟩⟩
    ({} : Settings).resolve [] = .error .empty ∧
      ({ allowUriSchemes := false } : Settings).resolve [] = .error .empty ∧
      ({} : Settings).resolve t = .ok m ∧
      ({ network := some .signet } : Settings).resolve t = .ok m ∧
      (∃ found, m.destination.network = some found ∧
        ({ network := some .bitcoin } : Settings).resolve t =
          .error (.wrongNetwork .bitcoin found)) ∧
      ({ allowUriSchemes := false } : Settings).resolve t = .error .unrecognized := by
  intro t m
  have found : ({} : Settings).resolve t = .ok m := by
    decide +kernel
  refine ⟨rfl, ?_, found, ?_, ?_, ?_⟩
  · exact (resolve_filters_default _ []).1 .empty rfl
  · have accepted := ((resolve_filters_default { network := some .signet } t).2.1 m found).1
    exact accepted rfl (.inr (.inr ⟨.signet, rfl, rfl⟩))
  · have refused := ((resolve_filters_default { network := some .bitcoin } t).2.1 m found).2.1
    exact refused rfl .bitcoin rfl rfl
  · exact ((resolve_filters_default { allowUriSchemes := false } t).2.1 m found).2.2 rfl

end Settings

end PaymentTarget
