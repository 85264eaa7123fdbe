import PaymentTarget.Proofs.Text
import PaymentTarget.Uri

/-! # What payment URIs hold

The first colon ends the scheme, and in a `bitcoin:` URI the first question
mark ends the address. A URI therefore holds one address or one invoice, and
reads as what it holds.
-/

namespace PaymentTarget

namespace Uri

/-- The URI holds this address, with or without parameters behind it. -/
inductive HoldsAddress (a : Text) : Text → Prop
  | plain {head : Text} : head.lower = bitcoinScheme → '?' ∉ a → HoldsAddress a (head ++ ':' :: a)
  | parameters {head parameters : Text} : head.lower = bitcoinScheme → '?' ∉ a →
      HoldsAddress a (head ++ ':' :: (a ++ '?' :: parameters))

/-- The URI holds this invoice. -/
inductive HoldsInvoice (i : Text) : Text → Prop
  | plain {head : Text} : head.lower = lightningScheme → HoldsInvoice i (head ++ ':' :: i)

theorem body?_eq_some_iff {scheme t body : Text} (single : ':' ∉ scheme.lower) :
    body? scheme t = some body ↔
      ∃ head : Text, head.lower = scheme.lower ∧ t = head ++ ':' :: body := by
  unfold body?
  constructor
  · intro found
    split at found
    · cases found
    next head rest cut =>
      split at found
      next same =>
        obtain rfl := Option.some.inj found
        exact ⟨head, eq_of_beq same, Text.eq_of_splitFirst? cut⟩
      · cases found
  · rintro ⟨head, same, rfl⟩
    have absent : ':' ∉ head := by
      intro member
      apply single
      rw [← same]
      exact List.mem_map.mpr ⟨':', member, rfl⟩
    have letters : head.sameLetters scheme = true := beq_iff_eq.mpr same
    simp only [Text.splitFirst?_append absent, letters, if_true]

theorem withoutParameters_eq_iff {body a : Text} :
    withoutParameters body = a ↔
      '?' ∉ a ∧ (body = a ∨ ∃ parameters, body = a ++ '?' :: parameters) := by
  unfold withoutParameters
  constructor
  · rintro rfl
    split
    next uncut => exact ⟨Text.splitFirst?_eq_none_iff.mp uncut, .inl rfl⟩
    next before parameters cut =>
      obtain ⟨absent, whole⟩ := Text.splitFirst?_eq_some_iff.mp cut
      exact ⟨absent, .inr ⟨parameters, whole⟩⟩
  · rintro ⟨absent, rfl | ⟨parameters, rfl⟩⟩
    · rw [Text.splitFirst?_eq_none_iff.mpr absent]
    · rw [Text.splitFirst?_append absent]

theorem holdsAddress_iff {t a : Text} :
    HoldsAddress a t ↔ ∃ body, body? bitcoinScheme t = some body ∧ withoutParameters body = a := by
  simp only [withoutParameters_eq_iff, body?_eq_some_iff (show ':' ∉ bitcoinScheme.lower by decide)]
  constructor
  · intro holds
    cases holds with
    | @plain head same absent => exact ⟨a, ⟨head, same, rfl⟩, absent, .inl rfl⟩
    | @parameters head parameters same absent =>
        exact ⟨_, ⟨head, same, rfl⟩, absent, .inr ⟨parameters, rfl⟩⟩
  · rintro ⟨body, ⟨head, same, rfl⟩, absent, rfl | ⟨parameters, rfl⟩⟩
    · exact .plain same absent
    · exact .parameters same absent

theorem holdsInvoice_iff {t i : Text} :
    HoldsInvoice i t ↔ body? lightningScheme t = some i := by
  rw [body?_eq_some_iff (show ':' ∉ lightningScheme.lower by decide)]
  constructor
  · rintro ⟨same⟩
    exact ⟨_, same, rfl⟩
  · rintro ⟨head, same, rfl⟩
    exact .plain same

theorem HoldsAddress.lower {a t : Text} (holds : HoldsAddress a t) :
    ∃ rest, t.lower = bitcoinScheme ++ rest := by
  cases holds with
  | plain same =>
      rw [Text.lower_append, same]
      exact ⟨_, rfl⟩
  | parameters same =>
      rw [Text.lower_append, same]
      exact ⟨_, rfl⟩

theorem HoldsInvoice.lower {i t : Text} (holds : HoldsInvoice i t) :
    ∃ rest, t.lower = lightningScheme ++ rest := by
  obtain ⟨same⟩ := holds
  rw [Text.lower_append, same]
  exact ⟨_, rfl⟩

end Uri

open Uri

theorem Address.readUri_of_holds {a t : Text} (holds : HoldsAddress a t) :
    Address.readUri t = Address.read a := by
  obtain ⟨body, found, rfl⟩ := holdsAddress_iff.mp holds
  rw [Address.readUri, found]

theorem Address.readUri_eq_ok_iff {t : Text} {x : Address} :
    Address.readUri t = .ok x ↔ ∃ a, HoldsAddress a t ∧ Address.read a = .ok x := by
  constructor
  · intro read
    unfold Address.readUri at read
    split at read
    · cases read
    next body found => exact ⟨_, holdsAddress_iff.mpr ⟨body, found, rfl⟩, read⟩
  · rintro ⟨a, holds, read⟩
    rw [readUri_of_holds holds, read]

theorem Invoice.readUri_of_holds {i t : Text} (holds : HoldsInvoice i t) :
    Invoice.readUri t = Invoice.read i := by
  rw [Invoice.readUri, holdsInvoice_iff.mp holds]

theorem Invoice.readUri_eq_ok_iff {t : Text} {x : Invoice} :
    Invoice.readUri t = .ok x ↔ ∃ i, HoldsInvoice i t ∧ Invoice.read i = .ok x := by
  constructor
  · intro read
    unfold Invoice.readUri at read
    split at read
    · cases read
    next body found => exact ⟨body, holdsInvoice_iff.mpr found, read⟩
  · rintro ⟨i, holds, read⟩
    rw [readUri_of_holds holds, read]

end PaymentTarget
