/-! # Numbers in a base

The digits of a number, the most significant first, without leading zeros; the
number zero has none.
-/

namespace PaymentTarget.Radix

/-- The number that digits write. -/
def value (base : Nat) (digits : List Nat) : Nat :=
  digits.foldl (fun n d => base * n + d) 0

/-- The digits of a number. In a base below two there are none. -/
def digits (base n : Nat) : List Nat :=
  if _h : 0 < n ∧ 1 < base then digits base (n / base) ++ [n % base] else []
termination_by n
decreasing_by exact Nat.div_lt_self _h.1 _h.2

/-- Digits of one more place multiply by the base and add. -/
theorem value_concat (base : Nat) (ds : List Nat) (d : Nat) :
    value base (ds ++ [d]) = base * value base ds + d := by
  simp [value]

/-- The digits of a number write it. -/
theorem value_digits {base : Nat} (hb : 1 < base) (n : Nat) : value base (digits base n) = n := by
  induction n using Nat.strongRecOn with
  | _ n ih =>
      rw [digits]
      split
      next h =>
        rw [value_concat, ih _ (Nat.div_lt_self h.1 h.2)]
        exact Nat.div_add_mod n base
      next h =>
        have : n = 0 := by omega
        subst this
        rfl

end PaymentTarget.Radix
