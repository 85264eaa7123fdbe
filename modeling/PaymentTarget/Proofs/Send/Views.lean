import PaymentTarget.Proofs.Classifier.Search
import PaymentTarget.Send.Intent

/-! # One answer in several views

Whether a text is a destination, by which scheme, of which kind, and what a
send does with it are asked separately, and each answer is made anew from the
text. They all look at one match: its scheme was tried because the settings
allow it, and it has the kind of the destination that it read.
-/

namespace PaymentTarget

theorem Scheme.kind_of_read {scheme : Scheme} {t : Text} {d : Destination}
    (read : scheme.read t = .ok d) : scheme.kind = d.kind := by
  cases scheme <;> obtain ⟨_, -, rfl⟩ := map_eq_ok_iff.mp read <;> rfl

namespace Settings

variable {s : Settings} {t : Text}

/-- What is said of one text agrees. -/
structure Agrees (s : Settings) (t : Text) : Prop where
  matched : (∃ scheme, s.matchedScheme? t = some scheme) ↔ ∃ d, s.parse t = .ok d
  scheme : ∀ scheme d, s.matchedScheme? t = some scheme → s.parse t = .ok d →
    s.isEnabled scheme = true ∧ scheme.kind = d.kind ∧ s.classify t = d.kind
  unknown : (∀ d, s.parse t ≠ .ok d) ↔ s.classify t = .unknown
  emptyInput : s.decide t = .reject .emptyInput ↔ t = []
  unsupportedInvoice : s.decide t = .reject .unsupportedInvoice ↔ ∃ i, s.parse t = .ok (.invoice i)
  onChainAddress : ∀ destination, s.decide t = .proceed destination .onChainAddress ↔
    destination = t ∧ ∃ address, s.parse t = .ok (.onChain address)
  nodePublicKey : ∀ destination, s.decide t = .proceed destination .nodePublicKey ↔
    destination = t ∧ ∃ target, s.parse t = .ok (.node target)
  unparseableDestination : s.decide t = .reject .unparseableDestination ↔
    t ≠ [] ∧ ∃ failure, s.parse t = .error failure

theorem views_of_match {m : Match} (found : s.resolve t = .ok m) :
    s.parse t = .ok m.destination ∧ s.matchedScheme? t = some m.scheme ∧
      s.classify t = m.scheme.kind := by
  simp [parse, matchedScheme?, classify, found, Except.map, Except.toOption]

theorem views_of_failure {failure : Failure} (refused : s.resolve t = .error failure) :
    s.parse t = .error failure ∧ s.matchedScheme? t = none ∧ s.classify t = .unknown := by
  simp [parse, matchedScheme?, classify, refused, Except.map, Except.toOption]

theorem agrees_of_match {m : Match} (found : s.resolve t = .ok m) : s.Agrees t := by
  obtain ⟨sized, read, enabled, -⟩ := resolve_eq_ok_iff.mp found
  obtain ⟨parsed, matched, classified⟩ := views_of_match found
  have kind := Scheme.kind_of_read read
  rw [kind] at classified
  have nonempty : t ≠ [] := by
    rintro rfl
    cases sized
  have decided : s.decide t =
      (PayableKind.ofKind? m.destination.kind).elim (.reject .unsupportedInvoice) (.proceed t) := by
    rw [Settings.decide, if_neg (List.isEmpty_iff.not.mpr nonempty), classified]
    cases m.destination <;> rfl
  refine ⟨?_, ?_, ?_, ?_, ?_, ?_, ?_, ?_⟩
  · simp [matched, parsed]
  · simp [matched, parsed, enabled, kind, classified]
  · simp only [parsed, classified]
    cases m.destination <;> simp [Destination.kind]
  all_goals
    rw [decided]
    simp only [parsed, nonempty]
    cases m.destination <;> simp [Destination.kind, PayableKind.ofKind?, eq_comm]

theorem agrees_of_failure {failure : Failure} (refused : s.resolve t = .error failure) :
    s.Agrees t := by
  obtain ⟨parsed, matched, classified⟩ := views_of_failure refused
  have decided : s.decide t =
      if t = [] then .reject .emptyInput else .reject .unparseableDestination := by
    simp [Settings.decide, classified]
  refine ⟨?_, ?_, ?_, ?_, ?_, ?_, ?_, ?_⟩
  · simp [matched, parsed]
  · simp [matched]
  · simp [parsed, classified]
  all_goals
    simp only [decided, parsed]
    split <;> simp [*]

theorem agrees (s : Settings) (t : Text) : s.Agrees t := by
  cases resolved : s.resolve t with
  | ok m => exact agrees_of_match resolved
  | error failure => exact agrees_of_failure resolved

end Settings

end PaymentTarget
