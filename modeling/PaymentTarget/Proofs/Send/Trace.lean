import PaymentTarget.Proofs.Send.Views
import PaymentTarget.Send.Trace

/-! # What the log of a decision tells

The schemes before the one that matches are in the log with their failures, and
behind them the outcome. A refusal for the network says that its scheme has read
the text. Because no other scheme reads it, there is one such refusal at most;
then nothing matches, and it is what the search comes to.
-/

namespace PaymentTarget

/-- Whether an event tells that a destination is on another network. -/
def Event.blamesNetwork (e : Event) : Bool :=
  e.message == "destination on another network"

theorem Failure.isWrongNetwork_iff {failure : Failure} :
    failure.isWrongNetwork = true ↔ ∃ expected found, failure = .wrongNetwork expected found := by
  cases failure <;> simp [isWrongNetwork]

theorem Event.blamesNetwork_refused (r : Refusal) :
    (Event.refused r).blamesNetwork = r.failure.isWrongNetwork := by
  cases blamed : r.failure.isWrongNetwork <;> simp [blamesNetwork, message, blamed]

theorem Event.blamesNetwork_decided (intent : Intent) :
    (Event.decided intent).blamesNetwork = false := by
  cases intent <;> simp [blamesNetwork, message]

namespace Settings

variable {s : Settings} {t : Text}

/-- Why a scheme does not match: it does not read the text, or what it reads is refused. -/
inductive Refuses (s : Settings) (t : Text) (scheme : Scheme) (failure : Failure) : Prop where
  | unread : scheme.read t = .error failure → Refuses s t scheme failure
  | foreign (d : Destination) :
      scheme.read t = .ok d → s.checkNetwork d = .error failure → Refuses s t scheme failure

/-- The schemes that are tried before the one that matches. -/
def tried (s : Settings) (t : Text) : List Scheme :=
  (Scheme.order.filter s.isEnabled).takeWhile fun scheme => s.matchedScheme? t != some scheme

/-- An event that tells why a scheme does not match. -/
structure Reports (s : Settings) (t : Text) (scheme : Scheme) (e : Event) : Prop where
  level : e.level = "TRACE"
  failure : ∃ failure, s.Refuses t scheme failure ∧ e = .refused ⟨scheme, failure⟩ ∧
    e.fields = [("scheme", scheme.name), ("error", failure.message)]

/-- An event that tells what was decided. -/
structure Concludes (s : Settings) (t : Text) (e : Event) : Prop where
  level : e.level = "DEBUG"
  proceed : ∀ destination kind, s.decide t = .proceed destination kind →
    e.fields = [("outcome", "proceed"), ("kind", kind.name)]
  reject : ∀ reason, s.decide t = .reject reason →
    e.fields = [("outcome", "reject"), ("reason", reason.code)]

/-- A log that tells of every scheme that was tried, and of nothing else but the outcome. -/
structure Faithful (s : Settings) (t : Text) (refused : List Event) (outcome : Event) : Prop where
  whole : s.trace t = refused ++ [outcome]
  refused : List.Forall₂ (s.Reports t) (s.tried t) refused
  outcome : s.Concludes t outcome
  once : (s.trace t).countP Event.blamesNetwork ≤ 1
  unmatched : ∀ e ∈ s.trace t, e.blamesNetwork = true → s.matchedScheme? t = none ∧
    ∃ scheme expected found, e = .refused ⟨scheme, .wrongNetwork expected found⟩ ∧
      s.parse t = .error (.wrongNetwork expected found)

theorem attempt_eq_error_iff {scheme : Scheme} {failure : Failure} :
    s.attempt scheme t = .error failure ↔ s.Refuses t scheme failure := by
  constructor
  · intro refused
    unfold attempt at refused
    split at refused
    next unread => exact .unread (Except.error.inj refused ▸ unread)
    next d read => exact .foreign d read refused
  · intro refused
    cases refused with
    | unread unread => rw [attempt, unread]
    | foreign d read refused =>
        rw [attempt, read]
        exact refused

theorem attempt_eq_ok_iff {scheme : Scheme} {d : Destination} :
    s.attempt scheme t = .ok d ↔
      scheme.read t = .ok d ∧
        ∀ expected, s.network = some expected → d.isValidFor expected = true := by
  constructor
  · intro accepted
    unfold attempt at accepted
    split at accepted
    · cases accepted
    next e read =>
      obtain rfl := checkNetwork_eq_ok accepted
      exact ⟨read, valid_of_checkNetwork accepted⟩
  · rintro ⟨read, valid⟩
    rw [attempt, read]
    exact checkNetwork_of_valid valid

theorem matchedScheme?_eq_some_iff (sized : sizeFailure? t = none) {scheme : Scheme} :
    s.matchedScheme? t = some scheme ↔
      s.isEnabled scheme = true ∧ ∃ d, s.attempt scheme t = .ok d := by
  constructor
  · intro matched
    cases resolved : s.resolve t with
    | ok m =>
        rw [(views_of_match resolved).2.1] at matched
        obtain rfl := Option.some.inj matched
        obtain ⟨-, read, enabled, valid⟩ := resolve_eq_ok_iff.mp resolved
        exact ⟨enabled, m.destination, attempt_eq_ok_iff.mpr ⟨read, valid⟩⟩
    | error failure =>
        rw [(views_of_failure resolved).2.1] at matched
        cases matched
  · rintro ⟨enabled, d, accepted⟩
    obtain ⟨read, valid⟩ := attempt_eq_ok_iff.mp accepted
    have resolved : s.resolve t = .ok ⟨scheme, d⟩ :=
      resolve_eq_ok_iff.mpr ⟨sized, read, enabled, valid⟩
    exact (views_of_match resolved).2.1

/-- The search refuses one scheme after the other, until it comes to the one that matches. -/
theorem map_scheme_search (sized : sizeFailure? t = none) (order : List Scheme) :
    (s.search t order).refusals.map Refusal.scheme =
      (order.filter s.isEnabled).takeWhile fun scheme => s.matchedScheme? t != some scheme := by
  induction order with
  | nil => rfl
  | cons scheme rest ih =>
      by_cases enabled : s.isEnabled scheme = true
      · rw [List.filter_cons_of_pos enabled, search, if_pos enabled, List.takeWhile_cons]
        cases attempted : s.attempt scheme t with
        | ok d =>
            have matched : s.matchedScheme? t = some scheme :=
              (matchedScheme?_eq_some_iff sized).mpr ⟨enabled, d, attempted⟩
            simp [matched]
        | error failure =>
            have unmatched : s.matchedScheme? t ≠ some scheme := by
              rw [Ne, matchedScheme?_eq_some_iff sized, attempted]
              simp
            rw [if_pos (bne_iff_ne.mpr unmatched), ← ih]
            rfl
      · rw [List.filter_cons_of_neg enabled, search, if_neg enabled]
        exact ih

theorem refuses_of_mem_search {order : List Scheme} {r : Refusal}
    (member : r ∈ (s.search t order).refusals) :
    s.isEnabled r.scheme = true ∧ s.Refuses t r.scheme r.failure := by
  induction order with
  | nil => cases member
  | cons scheme rest ih =>
      rw [search] at member
      split at member
      next enabled =>
        split at member
        · cases member
        next failure attempted =>
          rcases List.mem_cons.mp member with rfl | later
          · exact ⟨enabled, attempt_eq_error_iff.mp attempted⟩
          · exact ih later
      · exact ih member

section Refusals

variable (sized : sizeFailure? t = none) {r : Refusal}

include sized

theorem map_scheme_refusals : (s.refusals t).map Refusal.scheme = s.tried t := by
  rw [refusals, sized]
  exact map_scheme_search sized Scheme.order

theorem refuses_of_mem_refusals (member : r ∈ s.refusals t) :
    s.isEnabled r.scheme = true ∧ s.Refuses t r.scheme r.failure := by
  rw [refusals, sized] at member
  exact refuses_of_mem_search member

/-- Only what is read can be on another network, and then the search comes to that. -/
theorem resolve_of_blamed (member : r ∈ s.refusals t) (blamed : r.failure.isWrongNetwork = true) :
    (∃ d, r.scheme.read t = .ok d) ∧ s.resolve t = .error r.failure := by
  obtain ⟨enabled, refuses⟩ := refuses_of_mem_refusals sized member
  cases refuses with
  | unread unread =>
      rw [Scheme.isWrongNetwork_of_read unread] at blamed
      cases blamed
  | foreign d read refused =>
      refine ⟨⟨d, read⟩, ?_⟩
      rw [resolve, resolveIn_of_read read sized (Scheme.mem_order r.scheme), restrict,
        if_pos enabled, refused]

theorem countP_blamed_le_one :
    (s.refusals t).countP (fun r => r.failure.isWrongNetwork) ≤ 1 := by
  by_cases blamed : ∃ r ∈ s.refusals t, r.failure.isWrongNetwork = true
  · obtain ⟨first, member, blames⟩ := blamed
    obtain ⟨⟨d, read⟩, -⟩ := resolve_of_blamed sized member blames
    have same : ∀ r ∈ s.refusals t, r.failure.isWrongNetwork = true →
        (r.scheme == first.scheme) = true := by
      intro r also blames
      obtain ⟨⟨e, read'⟩, -⟩ := resolve_of_blamed sized also blames
      exact beq_iff_eq.mpr (Scheme.eq_of_read read' read)
    have once : (s.tried t).Nodup := by
      apply List.Nodup.sublist (List.takeWhile_sublist _)
      exact List.Nodup.filter _ (by decide)
    calc (s.refusals t).countP (fun r => r.failure.isWrongNetwork)
      _ ≤ (s.refusals t).countP (fun r => r.scheme == first.scheme) := List.countP_mono_left same
      _ = ((s.refusals t).map Refusal.scheme).count first.scheme := by
        rw [List.count, List.countP_map]
        rfl
      _ = (s.tried t).count first.scheme := by rw [map_scheme_refusals sized]
      _ ≤ 1 := List.nodup_iff_count_le_one.mp once _
  · have none : (s.refusals t).countP (fun r => r.failure.isWrongNetwork) = 0 :=
      List.countP_eq_zero.mpr fun r member blames => blamed ⟨r, member, blames⟩
    omega

end Refusals

theorem concludes_decided (s : Settings) (t : Text) : s.Concludes t (.decided (s.decide t)) := by
  refine ⟨rfl, ?_, ?_⟩
  · intro destination kind decided
    rw [decided]
    rfl
  · intro reason decided
    rw [decided]
    rfl

theorem faithful_trace (sized : sizeFailure? t = none) :
    s.Faithful t ((s.refusals t).map .refused) (.decided (s.decide t)) := by
  refine ⟨rfl, ?_, concludes_decided s t, ?_, ?_⟩
  · rw [← map_scheme_refusals sized, List.forall₂_map_left_iff, List.forall₂_map_right_iff,
      List.forall₂_same]
    intro r member
    exact ⟨rfl, r.failure, (refuses_of_mem_refusals sized member).2, rfl, rfl⟩
  · have blames : Event.blamesNetwork ∘ .refused = fun r => r.failure.isWrongNetwork :=
      funext Event.blamesNetwork_refused
    rw [trace, List.countP_append, List.countP_map, List.countP_singleton,
      Event.blamesNetwork_decided, blames]
    exact countP_blamed_le_one sized
  · intro e member blames
    rw [trace, List.mem_append, List.mem_map, List.mem_singleton] at member
    obtain ⟨r, member, rfl⟩ | rfl := member
    · rw [Event.blamesNetwork_refused] at blames
      obtain ⟨-, resolved⟩ := resolve_of_blamed sized member blames
      obtain ⟨parsed, unmatched, -⟩ := views_of_failure resolved
      obtain ⟨expected, found, wrong⟩ := Failure.isWrongNetwork_iff.mp blames
      rw [wrong] at parsed
      refine ⟨unmatched, r.scheme, expected, found, ?_, parsed⟩
      rw [← wrong]
    · rw [Event.blamesNetwork_decided] at blames
      cases blames

/-- The log tells every refusal before the match, each with its failure, and the outcome. -/
theorem trace_tells_search (s : Settings) (t : Text) :
    (t ≠ [] → t.size ≤ Text.maxSize → ∃ refused outcome, s.Faithful t refused outcome) ∧
      (t = [] ∨ Text.maxSize < t.size →
        ∃ outcome, s.trace t = [outcome] ∧ s.Concludes t outcome) := by
  constructor
  · intro nonempty short
    exact ⟨_, _, faithful_trace (sizeFailure?_eq_none_iff.mpr ⟨nonempty, short⟩)⟩
  · intro unsized
    refine ⟨.decided (s.decide t), ?_, concludes_decided s t⟩
    cases sized : sizeFailure? t with
    | some failure => simp [trace, refusals, sized]
    | none =>
        obtain ⟨nonempty, short⟩ := sizeFailure?_eq_none_iff.mp sized
        rcases unsized with empty | long
        · exact absurd empty nonempty
        · omega

/-- A URI for another network, which the schemes behind it refuse to read. -/
theorem trace_tells_search_of_uri :
    let s : Settings := { network := some .bitcoin, allowConnectionStrings := false }
    let t : Text := "bitcoin:tb1qw508d6qejxtdg4y5r3zarvary0c5xw7kxpjzsx".toList
    (∃ refused outcome, s.Faithful t refused outcome ∧ refused.length = 6 ∧
        refused.any Event.blamesNetwork = true) ∧
      ∃ outcome, s.trace [] = [outcome] ∧ s.Concludes [] outcome := by
  intro s t
  have short : t.size ≤ Text.maxSize := by decide +kernel
  obtain ⟨refused, outcome, faithful⟩ := (trace_tells_search s t).1 (by simp [t]) short
  have early : (s.trace t).dropLast = refused := by
    rw [faithful.whole, List.dropLast_concat]
  refine ⟨⟨refused, outcome, faithful, ?_, ?_⟩, (trace_tells_search s []).2 (.inl rfl)⟩
  · rw [← early]
    decide +kernel
  · rw [← early]
    decide +kernel

end Settings

end PaymentTarget
