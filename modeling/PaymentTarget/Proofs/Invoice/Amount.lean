import PaymentTarget.Invoice.Amount
import PaymentTarget.Proofs.Bech32.Hrp
import PaymentTarget.Proofs.Invoice.Fields

/-! # What the human-readable part of an invoice is made of

A part that states a network and perhaps an amount holds small letters and
digits only. Short enough, it can therefore stand in front of a Bech32 word. The
amount starts with a digit and no currency holds one, so that the network can
be told although one currency extends another.
-/

namespace PaymentTarget

namespace Amount

theorem isLower_of_multiplier {c : Char} {m : Multiplier} (names : Multiplier.ofChar? c = some m) :
    c.isLower = true := by
  unfold Multiplier.ofChar? at names
  split at names
  · decide
  · decide
  · decide
  · decide
  · cases names

theorem digits_of_read {t : Text} {msat : Nat} (read : Amount.read t = .ok msat) :
    (Amount.split t).1 ≠ [] ∧ ∀ c ∈ (Amount.split t).1, c.isDigit = true := by
  unfold Amount.read at read
  simp only at read
  split at read
  · cases read
  next wellFormed =>
    rw [Bool.or_eq_true, not_or, Bool.not_eq_true', Bool.not_eq_false,
      List.all_eq_true] at wellFormed
    exact ⟨List.isEmpty_iff.not.mp wellFormed.1, wellFormed.2⟩

theorem split_prefix (t : Text) : (Amount.split t).1 <+: t := by
  unfold Amount.split
  split
  · exact List.dropLast_prefix t
  · exact List.prefix_rfl

/-- An amount starts with a digit. -/
theorem isDigit_of_head_of_read {t : Text} {msat : Nat} (read : Amount.read t = .ok msat) :
    t.head?.all Char.isDigit = true := by
  obtain ⟨nonempty, digits⟩ := digits_of_read read
  obtain ⟨rest, whole⟩ := split_prefix t
  cases counted : (Amount.split t).1 with
  | nil => exact absurd counted nonempty
  | cons c more =>
      rw [counted] at whole
      rw [← whole]
      exact digits c (by simp [counted])

theorem isLower_or_isDigit_of_read {t : Text} {msat : Nat} (read : Amount.read t = .ok msat) :
    ∀ c ∈ t, c.isLower = true ∨ c.isDigit = true := by
  obtain ⟨-, digits⟩ := digits_of_read read
  intro c member
  unfold Amount.split at digits
  split at digits
  next m names =>
    obtain ⟨last, found, names⟩ := Option.bind_eq_some_iff.mp names
    rw [← List.dropLast_append_getLast? last found] at member
    rcases List.mem_append.mp member with early | final
    · exact Or.inr (digits c early)
    · rw [List.mem_singleton.mp final]
      exact Or.inl (isLower_of_multiplier names)
  next => exact Or.inr (digits c member)

end Amount

namespace InvoiceHrp

theorem isLower_of_currency (network : Network) : ∀ c ∈ network.currency, c.isLower = true := by
  cases network <;> simp [Network.currency]

theorem read_eq_ok {hrp : Text} {price : Network × Option Nat}
    (read : InvoiceHrp.read hrp = .ok price) :
    ∃ amount : Text, hrp = start ++ price.1.currency ++ amount ∧
      (amount = [] ∨ ∃ msat, Amount.read amount = .ok msat) := by
  unfold InvoiceHrp.read at read
  split at read
  next rest =>
    split at read
    · cases read
    next network found =>
      have opening := List.find?_some found
      rw [List.isPrefixOf_iff_prefix] at opening
      obtain ⟨amount, rfl⟩ := opening
      rw [List.drop_left] at read
      simp only at read
      split at read
      next none =>
        rw [← Except.ok.inj read]
        exact ⟨amount, rfl, .inl (List.isEmpty_iff.mp none)⟩
      · split at read
        · cases read
        next msat stated =>
          rw [← Except.ok.inj read]
          exact ⟨amount, rfl, .inr ⟨msat, stated⟩⟩
  · cases read

theorem currency_of_read {hrp : Text} {price : Network × Option Nat}
    (read : InvoiceHrp.read hrp = .ok price) :
    ∃ amount : Text, hrp = start ++ price.1.currency ++ amount ∧
      amount.head?.all Char.isDigit = true := by
  obtain ⟨amount, rfl, none | ⟨msat, stated⟩⟩ := read_eq_ok read
  · exact ⟨amount, rfl, by rw [none]; rfl⟩
  · exact ⟨amount, rfl, Amount.isDigit_of_head_of_read stated⟩

/-- The letters behind `ln` are the currency: an amount starts with a digit. -/
theorem takeWhile_currency (network : Network) {amount : Text}
    (counted : amount.head?.all Char.isDigit = true) :
    (network.currency ++ amount).takeWhile Char.isLower = network.currency := by
  rw [List.takeWhile_append_of_pos (isLower_of_currency network)]
  cases amount with
  | nil => rw [List.takeWhile_nil, List.append_nil]
  | cons c rest =>
      have digit := Text.isDigit_iff.mp counted
      have notLower : ¬ c.isLower = true := by
        rw [Text.isLower_iff]
        omega
      rw [List.takeWhile_cons_of_neg notLower, List.append_nil]

theorem currency_inj {n m : Network} : n.currency = m.currency ↔ n = m := by
  constructor
  · intro same
    have known := Network.ofCurrency?_currency n
    rw [same, Network.ofCurrency?_currency m] at known
    exact (Option.some.inj known).symm
  · exact congrArg Network.currency

/-- No human-readable part names two networks. -/
theorem network_unique {n m : Network} {a b : Text} (first : a.head?.all Char.isDigit = true)
    (second : b.head?.all Char.isDigit = true)
    (same : start ++ n.currency ++ a = start ++ m.currency ++ b) : n = m := by
  rw [List.append_assoc, List.append_assoc, List.append_cancel_left_eq] at same
  have letters := takeWhile_currency n first
  rw [same, takeWhile_currency m second] at letters
  exact currency_inj.mp letters.symm

theorem isLower_or_isDigit_of_read {hrp : Text} {price : Network × Option Nat}
    (read : InvoiceHrp.read hrp = .ok price) : ∀ c ∈ hrp, c.isLower = true ∨ c.isDigit = true := by
  obtain ⟨amount, rfl, counted⟩ := read_eq_ok read
  intro c member
  rcases List.mem_append.mp member with opening | final
  · rcases List.mem_append.mp opening with first | second
    · have small : ∀ c ∈ start, c.isLower = true := by simp [start]
      exact Or.inl (small c first)
    · exact Or.inl (isLower_of_currency _ c second)
  · rcases counted with rfl | ⟨msat, stated⟩
    · cases final
    · exact Amount.isLower_or_isDigit_of_read stated c final

theorem not_isUpper_of_read {hrp : Text} {price : Network × Option Nat}
    (read : InvoiceHrp.read hrp = .ok price) : hrp.any Char.isUpper = false := by
  rw [List.any_eq_false]
  intro c member
  rw [Text.isUpper_iff]
  rcases isLower_or_isDigit_of_read read c member with small | digit
  · have range := Text.isLower_iff.mp small
    omega
  · have range := Text.isDigit_iff.mp digit
    omega

theorem lower_of_read {hrp : Text} {price : Network × Option Nat}
    (read : InvoiceHrp.read hrp = .ok price) : hrp.lower = hrp :=
  Text.lower_eq_self (not_isUpper_of_read read)

theorem fault?_of_read {hrp : Text} {price : Network × Option Nat}
    (read : InvoiceHrp.read hrp = .ok price) (short : hrp.size ≤ Hrp.maxSize) :
    Hrp.fault? hrp = none := by
  have characters := isLower_or_isDigit_of_read read
  obtain ⟨amount, rfl, -⟩ := read_eq_ok read
  refine Hrp.fault?_eq_none_iff.mpr ⟨by simp [start], short, ?_, ?_⟩
  · intro c member
    rcases characters c member with small | digit
    · have range := Text.isLower_iff.mp small
      unfold Hrp.isVisible
      omega
    · have range := Text.isDigit_iff.mp digit
      unfold Hrp.isVisible
      omega
  · rw [Text.isMixedCase, not_isUpper_of_read read, Bool.false_and]

theorem isContent_of_read {hrp : Text} {failure : Failure}
    (refused : InvoiceHrp.read hrp = .error failure) : failure.isContent = true := by
  unfold InvoiceHrp.read at refused
  split at refused
  · split at refused
    · cases refused
      rfl
    · simp only at refused
      split at refused
      · cases refused
      · split at refused
        · cases refused
          rfl
        · cases refused
  · cases refused
    rfl

end InvoiceHrp

end PaymentTarget
