import Mathlib
import PaymentTarget.Bech32.Hrp
import PaymentTarget.Proofs.Text

/-! # Texts that are human-readable parts

The search for a fault goes from left to right and remembers the letter cases
it has met. What it accepts can be said of the text as a whole, and the small
form of an accepted text is accepted as well.
-/

namespace PaymentTarget

namespace Hrp

/-- A visible ASCII character. -/
def isVisible (c : Char) : Prop :=
  33 ≤ c.toNat ∧ c.toNat ≤ 126

theorem isVisible_toLower {c : Char} (visible : isVisible c) : isVisible c.toLower := by
  by_cases capital : c.isUpper = true
  · have range := Text.isUpper_iff.mp capital
    have moved := Text.toNat_toLower capital
    unfold isVisible
    omega
  · rwa [Char.toLower_eq_of_not_isUpper capital]

theorem characterFault?_eq_none_iff {small capital : Bool} {t : Text}
    (single : (small && capital) = false) :
    characterFault? small capital t = none ↔
      (∀ c ∈ t, isVisible c) ∧
        ((small || t.any Char.isLower) && (capital || t.any Char.isUpper)) = false := by
  induction t generalizing small capital with
  | nil => simpa [characterFault?] using single
  | cons c rest ih =>
      rw [characterFault?, List.forall_mem_cons, List.any_cons, List.any_cons, ← Bool.or_assoc,
        ← Bool.or_assoc]
      split
      next wide =>
        have : ¬ isVisible c := by
          unfold isVisible
          omega
        simp [this]
      next ascii =>
        split
        next blank =>
          have : ¬ isVisible c := by
            unfold isVisible
            omega
          simp [this]
        next visible =>
          have visible : isVisible c := by
            unfold isVisible
            omega
          have oneCase : ¬(c.isLower = true ∧ c.isUpper = true) := by
            rw [Text.isLower_iff, Text.isUpper_iff]
            omega
          split
          next mixed =>
            have bothCases : ¬(((small || c.isLower || rest.any Char.isLower) &&
                (capital || c.isUpper || rest.any Char.isUpper)) = false) := by
              grind
            simp only [reduceCtorEq, bothCases, and_false]
          next unmixed =>
            have later : ((small || c.isLower) && (capital || c.isUpper)) = false := by
              grind
            simp [ih later, visible]

theorem fault?_eq_none_iff {hrp : Text} :
    fault? hrp = none ↔
      hrp ≠ [] ∧ hrp.size ≤ maxSize ∧ (∀ c ∈ hrp, isVisible c) ∧ hrp.isMixedCase = false := by
  have characters := characterFault?_eq_none_iff (t := hrp) (Bool.and_self false)
  rw [fault?]
  split
  next empty => simp [List.isEmpty_iff.mp empty]
  next nonempty =>
    split
    next long => simp [Nat.not_le.mpr long]
    next short =>
      rw [characters, Text.isMixedCase, Bool.and_comm (hrp.any Char.isUpper)]
      simp [List.isEmpty_iff.not.mp nonempty, Nat.not_lt.mp short]

/-- The small form of a human-readable part is one. -/
theorem fault?_lower {hrp : Text} (sound : fault? hrp = none) : fault? hrp.lower = none := by
  obtain ⟨nonempty, short, visible, -⟩ := fault?_eq_none_iff.mp sound
  refine fault?_eq_none_iff.mpr ⟨?_, ?_, ?_, ?_⟩
  · simpa [Text.lower] using nonempty
  · rwa [Text.size_lower]
  · intro c member
    obtain ⟨d, original, rfl⟩ := List.mem_map.mp member
    exact isVisible_toLower (visible d original)
  · exact Text.isMixedCase_of_lower (Text.lower_lower hrp)

end Hrp

end PaymentTarget
