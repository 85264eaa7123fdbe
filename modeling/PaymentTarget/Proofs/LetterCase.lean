import PaymentTarget.Proofs.Address.Segwit
import PaymentTarget.Proofs.Invoice.Layout
import PaymentTarget.Proofs.Node.Key

/-! # Letter case follows the encoding

A Bech32 word looks at the letters of a text in two ways: whether both cases
occur, and what the small form is. Whatever is made of a word later, a value or
the words of a refusal, is made of the small form, so that two texts that agree
in these two are read alike. Hexadecimal digits are looked at one by one, and
each may have a case of its own.
-/

namespace PaymentTarget

namespace Text

/-- The texts have the same letters, and neither or both mix their cases. -/
structure Recased (t u : Text) : Prop where
  letters : t.lower = u.lower
  cases : t.isMixedCase = u.isMixedCase

theorem Recased.size {t u : Text} (recased : Recased t u) : t.size = u.size := by
  rw [← size_lower t, recased.letters, size_lower]

theorem Recased.isEmpty {t u : Text} (recased : Recased t u) : t.isEmpty = u.isEmpty := by
  have lengths := congrArg List.length recased.letters
  simp only [lower, List.length_map] at lengths
  cases t <;> cases u <;> simp at lengths ⊢

theorem isMixedCase_upper (t : Text) : t.upper.isMixedCase = false := by
  have one := (singleCase_iff (lower_lower t)).mpr (.inr rfl)
  rw [upper_lower] at one
  exact one.1

theorem recased_lower_upper (t : Text) : Recased t.lower t.upper where
  letters := by rw [lower_lower, lower_upper]
  cases := by rw [isMixedCase_of_lower (lower_lower t), isMixedCase_upper]

end Text

open Text

section Readers

variable {t u : Text}

theorem Word.read?_recased (recased : Recased t u) : Word.read? t = Word.read? u := by
  rw [Word.read?, Word.read?, recased.letters, recased.cases]

theorem Invoice.read_recased (recased : Recased t u) : Invoice.read t = Invoice.read u := by
  rw [Invoice.read, Invoice.read, recased.isEmpty, lower_take, lower_take, recased.letters,
    Word.read?_recased recased, recased.size]

theorem SegwitProgram.read?_recased (recased : Recased t u) :
    SegwitProgram.read? t = SegwitProgram.read? u := by
  rw [SegwitProgram.read?, SegwitProgram.read?, Word.read?_recased recased]

theorem Address.readSegwit_recased (recased : Recased t u) :
    Address.readSegwit t = Address.readSegwit u := by
  rw [Address.readSegwit, Address.readSegwit, recased.size, SegwitProgram.read?_recased recased]

theorem Invoice.isMixedCase_of_read {i : Invoice} (read : Invoice.read t = .ok i) :
    t.isMixedCase = false := by
  obtain ⟨l, writes, -⟩ := Layout.exists_of_read read
  exact writes.singleCase

theorem Address.isMixedCase_of_readSegwit {a : Address} (read : Address.readSegwit t = .ok a) :
    t.isMixedCase = false := by
  obtain ⟨p, -, program⟩ := exists_program_of_readSegwit read
  exact (SegwitProgram.read?_eq_some_iff.mp program).2.2.1

theorem NodeKey.read_of_lower {k : NodeKey} (read : NodeKey.read t = .ok k)
    (letters : u.lower = t.lower) : NodeKey.read u = .ok k := by
  rw [NodeKey.read_eq_ok_iff] at read ⊢
  rw [letters, read]

end Readers

/-- Invoices and segwit addresses are read alike in small letters and in capitals, refusals
included, and never in a mixture; the digits of a node key may have any case each. -/
theorem read_follows_case (t : Text) :
    Invoice.read t.lower = Invoice.read t.upper ∧
      Address.readSegwit t.lower = Address.readSegwit t.upper ∧
      ((∃ c ∈ t, c.isUpper = true) → (∃ c ∈ t, c.isLower = true) →
        (∃ failure, Invoice.read t = .error failure) ∧
          ∃ failure, Address.readSegwit t = .error failure) ∧
      ∀ (u : Text) (k : NodeKey), NodeKey.read t = .ok k → u.lower = t.lower →
        NodeKey.read u = .ok k := by
  have recased := recased_lower_upper t
  refine ⟨Invoice.read_recased recased, Address.readSegwit_recased recased, ?_, ?_⟩
  · intro capital small
    have mixed : t.isMixedCase = true := by
      simpa [isMixedCase, List.any_eq_true] using ⟨capital, small⟩
    constructor
    · cases read : Invoice.read t with
      | error failure => exact ⟨failure, rfl⟩
      | ok i =>
          rw [Invoice.isMixedCase_of_read read] at mixed
          cases mixed
    · cases read : Address.readSegwit t with
      | error failure => exact ⟨failure, rfl⟩
      | ok a =>
          rw [Address.isMixedCase_of_readSegwit read] at mixed
          cases mixed
  · intro u k read letters
    exact NodeKey.read_of_lower read letters

theorem read_follows_case_of_mixture :
    let t : Text := "bc1QW508D6QEJXTDG4Y5R3ZARVARY0C5XW7KV8F3T4".toList
    let key : Text := "0279be667ef9dcbbac55a06295ce870b07029bfcdb2dce28d959f2815b16f81798".toList
    let recased : Text :=
      "0279Be667eF9DCbbac55A06295Ce870b07029BFCDB2DCE28d959f2815b16f81798".toList
    (∃ c ∈ t, c.isUpper = true) ∧ (∃ c ∈ t, c.isLower = true) ∧
      (∃ failure, Address.readSegwit t = .error failure) ∧
      Address.readSegwit t.upper = .ok ⟨.bitcoin, .p2wpkh⟩ ∧
      Address.readSegwit t.lower = .ok ⟨.bitcoin, .p2wpkh⟩ ∧
      recased.lower = key.lower ∧
      ∃ k, NodeKey.read key = .ok k ∧ NodeKey.read recased = .ok k := by
  intro t key recased
  have capital : ∃ c ∈ t, c.isUpper = true := ⟨'Q', by decide +kernel, by decide⟩
  have small : ∃ c ∈ t, c.isLower = true := ⟨'b', by decide +kernel, by decide⟩
  have letters : recased.lower = key.lower := by decide +kernel
  have upper : Address.readSegwit t.upper = .ok ⟨.bitcoin, .p2wpkh⟩ := by decide +kernel
  have accepted : (NodeKey.read key).toBool = true := by decide +kernel
  obtain ⟨k, read⟩ : ∃ k, NodeKey.read key = .ok k := by
    cases read : NodeKey.read key with
    | ok k => exact ⟨k, rfl⟩
    | error failure =>
        rw [read] at accepted
        cases accepted
  obtain ⟨-, segwit, mixture, -⟩ := read_follows_case t
  obtain ⟨-, -, -, digits⟩ := read_follows_case key
  exact ⟨capital, small, (mixture capital small).2, upper, segwit.trans upper, letters, k, read,
    digits recased k read letters⟩

end PaymentTarget
