import PaymentTarget.Bech32.Number
import PaymentTarget.Proofs.Radix

/-! # Numbers as symbols

Symbols are read as base-32 digits, of which 64 bits are kept. Up to twelve of
them fit, so that nothing is lost: they are the digits of the number that is
read. A number comes back from as many digits as it needs, and from any number of
digits as much of it as they hold.
-/

namespace PaymentTarget

theorem pow_thirtyTwo (width : Nat) : 32 ^ width = 2 ^ (5 * width) := by
  rw [pow_mul]
  norm_num

theorem lt_of_mem_symbols {digits : List Symbol} : ∀ d ∈ digits.map BitVec.toNat, d < 32 := by
  intro d member
  obtain ⟨s, -, rfl⟩ := List.mem_map.mp member
  exact s.isLt

theorem value_symbols_lt (digits : List Symbol) :
    Radix.value 32 (digits.map BitVec.toNat) < 32 ^ digits.length := by
  rw [← List.length_map (BitVec.toNat (w := 5))]
  exact Radix.value_lt lt_of_mem_symbols

theorem numberOfSymbols_concat (digits : List Symbol) (d : Symbol) :
    numberOfSymbols (digits ++ [d]) = (32 * numberOfSymbols digits + d.toNat) % wordBound := by
  simp only [numberOfSymbols, List.foldl_append, List.foldl_cons, List.foldl_nil]

/-- Of the number that symbols write 64 bits are read. -/
theorem numberOfSymbols_eq_mod (digits : List Symbol) :
    numberOfSymbols digits = Radix.value 32 (digits.map BitVec.toNat) % wordBound := by
  induction digits using List.reverseRecOn with
  | nil => rfl
  | append_singleton digits d ih =>
      rw [numberOfSymbols_concat, ih, List.map_append, List.map_singleton, Radix.value_concat,
        Nat.add_mod, Nat.mul_mod_mod, ← Nat.add_mod]

theorem numberOfSymbols_lt_wordBound (digits : List Symbol) :
    numberOfSymbols digits < wordBound := by
  rw [numberOfSymbols_eq_mod]
  exact Nat.mod_lt _ (by decide)

theorem numberOfSymbols_eq_value {digits : List Symbol} (short : digits.length ≤ 12) :
    numberOfSymbols digits = Radix.value 32 (digits.map BitVec.toNat) := by
  have bound : 32 ^ digits.length ≤ 32 ^ 12 := Nat.pow_le_pow_right (by decide) short
  have fits : 32 ^ 12 ≤ wordBound := by decide
  rw [numberOfSymbols_eq_mod]
  exact Nat.mod_eq_of_lt ((value_symbols_lt digits).trans_le (bound.trans fits))

theorem numberOfSymbols_lt {digits : List Symbol} (short : digits.length ≤ 12) :
    numberOfSymbols digits < 32 ^ digits.length := by
  rw [numberOfSymbols_eq_value short]
  exact value_symbols_lt digits

theorem value_symbolsOfNumber (n width : Nat) :
    Radix.value 32 ((symbolsOfNumber n width).map BitVec.toNat) = n % 32 ^ width := by
  induction width with
  | zero => simp [symbolsOfNumber, Radix.value, Nat.mod_one]
  | succ width ih =>
      rw [symbolsOfNumber, List.map_cons, Radix.value_cons, List.length_map,
        length_symbolsOfNumber, ih, BitVec.toNat_ofNat, Nat.pow_eq, Nat.mod_pow_succ (x := n) (b := 32)]
      ring

/-- What as many symbols can hold of a number, and 64 bits, is read again. -/
theorem numberOfSymbols_symbolsOfNumber (n width : Nat) :
    numberOfSymbols (symbolsOfNumber n width) = n % 2 ^ min (5 * width) 64 := by
  have top : wordBound = 2 ^ 64 := rfl
  rw [numberOfSymbols_eq_mod, value_symbolsOfNumber, pow_thirtyTwo, top]
  rcases Nat.le_total (5 * width) 64 with narrow | wide
  · rw [min_eq_left narrow, Nat.mod_mod_of_dvd' (Nat.pow_dvd_pow 2 narrow)]
  · rw [min_eq_right wide, Nat.mod_mod_of_dvd _ (Nat.pow_dvd_pow 2 wide)]

theorem symbolsOfNumber_value (digits : List Symbol) :
    symbolsOfNumber (Radix.value 32 (digits.map BitVec.toNat)) digits.length = digits := by
  have length := length_symbolsOfNumber (Radix.value 32 (digits.map BitVec.toNat)) digits.length
  apply List.map_injective_iff.mpr (BitVec.toNat_injective (n := 5))
  apply Radix.value_inj (by decide) (by simpa using length) lt_of_mem_symbols lt_of_mem_symbols
  rw [value_symbolsOfNumber, Nat.mod_eq_of_lt (value_symbols_lt digits)]

theorem symbolsOfNumber_numberOfSymbols {digits : List Symbol} (short : digits.length ≤ 12) :
    symbolsOfNumber (numberOfSymbols digits) digits.length = digits := by
  rw [numberOfSymbols_eq_value short]
  exact symbolsOfNumber_value digits

theorem lt_pow_symbolWidth (n : Nat) : n < 32 ^ symbolWidth n := by
  induction n using Nat.strongRecOn with
  | ind n ih =>
      rw [symbolWidth]
      split
      · omega
      next large =>
        have := ih (n / 32) (Nat.div_lt_self (by omega) (by omega))
        rw [pow_succ]
        omega

theorem symbolWidth_le {n width : Nat} (positive : 0 < width) (small : n < 32 ^ width) :
    symbolWidth n ≤ width := by
  induction width generalizing n with
  | zero => omega
  | succ width ih =>
      rw [symbolWidth]
      split
      · omega
      next large =>
        have rest : n / 32 < 32 ^ width := by
          rw [pow_succ] at small
          exact Nat.div_lt_of_lt_mul (by omega)
        have positive : 0 < width := by
          by_contra none
          obtain rfl : width = 0 := by omega
          omega
        have := ih positive rest
        omega

theorem one_le_symbolWidth (n : Nat) : 1 ≤ symbolWidth n := by
  rw [symbolWidth]
  split <;> omega

/-- A number is as wide as the fewest symbols that hold it. -/
theorem isLeast_symbolWidth (n : Nat) :
    IsLeast {width | 1 ≤ width ∧ n < 2 ^ (5 * width)} (symbolWidth n) := by
  constructor
  · exact ⟨one_le_symbolWidth n, pow_thirtyTwo _ ▸ lt_pow_symbolWidth n⟩
  · rintro width ⟨positive, small⟩
    exact symbolWidth_le positive (pow_thirtyTwo width ▸ small)

end PaymentTarget
