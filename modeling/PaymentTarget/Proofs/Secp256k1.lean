import Mathlib
import PaymentTarget.Bits
import PaymentTarget.Secp256k1

/-! # Abscissas of the curve

An abscissa is told by one power and one square, and belongs to a point exactly
if there is a root at all. In one direction the candidate is the root. In the
other it is one by Euler's criterion, which holds because the number of elements
of the field is prime. That is shown by Pocklington's test, three times over: a
prime that is larger than the root of a number, and divides the number less one,
leaves no room for two factors.
-/

namespace PaymentTarget.Secp256k1

/-- A power modulo `m`, by squaring along the bits of the exponent. -/
def powerMod (m base : Nat) (exponent : Bits) : Nat :=
  exponent.foldl
    (fun acc bit =>
      let square := acc * acc % m
      if bit then square * base % m else square) 1

theorem powerMod_modEq (m base : Nat) (exponent : Bits) :
    powerMod m base exponent ≡ base ^ Bits.toNat exponent [MOD m] := by
  induction exponent using List.reverseRecOn with
  | nil => exact Nat.ModEq.refl 1
  | append_singleton front bit ih =>
      have number : Bits.toNat (front ++ [bit]) = 2 * Bits.toNat front + bit.toNat := by
        simp only [Bits.toNat, List.foldl_append, List.foldl_cons, List.foldl_nil]
      have square : powerMod m base front * powerMod m base front % m ≡
          base ^ (2 * Bits.toNat front) [MOD m] := by
        rw [two_mul, pow_add]
        exact (Nat.mod_modEq _ m).trans (ih.mul ih)
      rw [number]
      simp only [powerMod, List.foldl_append, List.foldl_cons, List.foldl_nil] at square ⊢
      cases bit with
      | false => exact square
      | true =>
          rw [if_pos rfl, Bool.toNat_true, pow_succ]
          exact (Nat.mod_modEq _ m).trans (square.mul_right base)

theorem toNat_testBits (n width : Nat) :
    Bits.toNat ((List.range width).map n.testBit).reverse = n % 2 ^ width := by
  induction width generalizing n with
  | zero => simp [Bits.toNat, Nat.mod_one]
  | succ width ih =>
      have later : (List.range width).map (n.testBit ∘ Nat.succ) =
          (List.range width).map (n / 2).testBit := by
        apply List.map_congr_left
        intro i _
        exact Nat.testBit_succ n i
      have number := ih (n / 2)
      have last : (n.testBit 0).toNat = n % 2 := by
        rcases Nat.mod_two_eq_zero_or_one n with even | odd
        · simp [even]
        · simp [odd]
      rw [List.range_succ_eq_map, List.map_cons, List.map_map, later, List.reverse_cons]
      simp only [Bits.toNat, List.foldl_append, List.foldl_cons, List.foldl_nil] at number ⊢
      rw [number, last, pow_succ', Nat.mod_mul, Nat.add_comm]

theorem powerMod_bits {n : Nat} (small : n < 2 ^ 256) (m base : Nat) :
    powerMod m base (bits n) ≡ base ^ n [MOD m] := by
  have exponent : Bits.toNat (bits n) = n := by
    rw [bits, toNat_testBits, Nat.mod_eq_of_lt small]
  have power := powerMod_modEq m base (bits n)
  rwa [exponent] at power

section Primality

variable {n part q : Nat}

/-- A number is prime if all its prime factors leave one by division by something larger than
    its root. -/
theorem prime_of_factors (more : 1 < n) (large : n < part ^ 2)
    (factors : ∀ s, s.Prime → s ∣ n → part ∣ s - 1) : n.Prime := by
  by_contra composite
  have least := Nat.minFac_prime (Nat.ne_of_gt more)
  have two := least.two_le
  have small := Nat.minFac_sq_le_self (by omega) composite
  have bound := Nat.le_of_dvd (by omega) (factors _ least n.minFac_dvd)
  have square : part ^ 2 ≤ n.minFac ^ 2 := Nat.pow_le_pow_left (by omega) 2
  omega

/-- Fermat's congruence holds for `n` and the base two, and with the exponent divided by `q` it
    holds for no factor of `n`. -/
def isWitness (n q : Nat) : Bool :=
  powerMod n 2 (bits (n - 1)) == 1 &&
    Nat.gcd (powerMod n 2 (bits ((n - 1) / q)) + (n - 1)) n == 1

/-- The order of two modulo a prime factor is a multiple of `q`. -/
theorem dvd_sub_one_of_isWitness (more : 1 < n) (small : n < 2 ^ 256) (prime : q.Prime)
    (divides : q ∣ n - 1) (witness : isWitness n q = true) {s : Nat} (factor : s.Prime)
    (within : s ∣ n) : q ∣ s - 1 := by
  have : Fact s.Prime := ⟨factor⟩
  obtain ⟨k, whole⟩ := divides
  have quotient : (n - 1) / q = k := by
    rw [whole, Nat.mul_div_cancel_left k prime.pos]
  have less : k ≤ n - 1 := quotient ▸ Nat.div_le_self _ _
  simp only [isWitness, Bool.and_eq_true, beq_iff_eq, quotient] at witness
  obtain ⟨one, apart⟩ := witness
  have fermat : (2 : ZMod s) ^ (n - 1) = 1 := by
    have power := (powerMod_bits (n := n - 1) (by omega) n 2).of_dvd within
    rw [one, ← ZMod.natCast_eq_natCast_iff] at power
    exact_mod_cast power.symm
  have early : (2 : ZMod s) ^ k ≠ 1 := by
    intro early
    have power := (powerMod_bits (n := k) (by omega) n 2).of_dvd within
    rw [← ZMod.natCast_eq_natCast_iff, Nat.cast_pow, Nat.cast_ofNat, early] at power
    have multiple : (n : ZMod s) = 0 := (ZMod.natCast_eq_zero_iff _ _).mpr within
    have zero : ((powerMod n 2 (bits k) + (n - 1) : Nat) : ZMod s) = 0 := by
      rw [Nat.cast_add, power, Nat.cast_sub (by omega), multiple]
      simp
    have common := Nat.dvd_gcd ((ZMod.natCast_eq_zero_iff _ _).mp zero) within
    rw [apart] at common
    exact factor.one_lt.ne' (Nat.dvd_one.mp common)
  have nonzero : (2 : ZMod s) ≠ 0 := by
    intro zero
    rw [zero, zero_pow (by omega)] at fermat
    exact zero_ne_one fermat
  have order : orderOf (2 : ZMod s) ∣ q * k := whole ▸ orderOf_dvd_of_pow_eq_one fermat
  have inOrder : q ∣ orderOf (2 : ZMod s) := by
    by_contra outside
    have coprime := ((Nat.Prime.coprime_iff_not_dvd prime).mpr outside).symm
    exact early (orderOf_dvd_iff_pow_eq_one.mp (coprime.dvd_of_dvd_mul_left order))
  exact inOrder.trans (ZMod.orderOf_dvd_card_sub_one nonzero)

/-- Pocklington's test with one prime. -/
theorem prime_of_isWitness (more : 1 < n) (small : n < 2 ^ 256) (prime : q.Prime)
    (divides : q ∣ n - 1) (large : n < q ^ 2) (witness : isWitness n q = true) : n.Prime :=
  prime_of_factors more large fun _ factor within =>
    dvd_sub_one_of_isWitness more small prime divides witness factor within

end Primality

/-- A prime of 128 bits. What it exceeds by one is a product of small primes, three of which
    exceed its root together. -/
theorem prime_below : Nat.Prime 255515944373312847190720520512484175977 := by
  have first : Nat.Prime 96557 := by norm_num
  have second : Nat.Prime 7240687 := by norm_num
  have third : Nat.Prime 107590001 := by norm_num
  apply prime_of_factors (by decide) (show _ < (96557 * 7240687 * 107590001) ^ 2 by decide)
  intro s factor within
  have one := dvd_sub_one_of_isWitness (by decide) (by decide) first (by decide)
    (by decide +kernel) factor within
  have two := dvd_sub_one_of_isWitness (by decide) (by decide) second (by decide)
    (by decide +kernel) factor within
  have three := dvd_sub_one_of_isWitness (by decide) (by decide) third (by decide)
    (by decide +kernel) factor within
  exact Nat.Coprime.mul_dvd_of_dvd_of_dvd (by decide)
    (Nat.Coprime.mul_dvd_of_dvd_of_dvd (by decide) one two) three

theorem prime_between :
    Nat.Prime 205115282021455665897114700593932402728804164701536103180137503955397371 :=
  prime_of_isWitness (by decide) (by decide) prime_below (by decide) (by decide)
    (by decide +kernel)

theorem prime_prime : Nat.Prime prime :=
  prime_of_isWitness (by decide) (by decide) prime_between (by decide +kernel) (by decide +kernel)
    (by decide +kernel)

theorem power_modEq {n : Nat} (small : n < 2 ^ 256) (base : Nat) :
    power base n ≡ base ^ n [MOD prime] :=
  powerMod_bits small prime base

theorem cubic_modEq (x : Nat) : cubic x ≡ x ^ 3 + 7 [MOD prime] := by
  have square : x * x % prime * x ≡ x ^ 3 [MOD prime] := by
    rw [pow_succ, pow_two]
    exact (Nat.mod_modEq _ prime).mul_right x
  exact (Nat.mod_modEq _ prime).trans (square.add_right 7)

/-- The square of the candidate for a root is the number itself, if that is a square at all. -/
theorem square_rootCandidate {a : Nat} (square : ∃ y, y * y ≡ a [MOD prime]) :
    rootCandidate a * rootCandidate a ≡ a [MOD prime] := by
  have : Fact prime.Prime := ⟨prime_prime⟩
  have power : rootCandidate a * rootCandidate a ≡ a ^ (prime / 2 + 1) [MOD prime] := by
    have half := power_modEq (n := (prime + 1) / 4) (by decide +kernel) a
    have exponent : prime / 2 + 1 = (prime + 1) / 4 + (prime + 1) / 4 := by decide +kernel
    rw [exponent, pow_add]
    exact half.mul half
  apply power.trans
  rw [← ZMod.natCast_eq_natCast_iff, Nat.cast_pow, pow_succ]
  by_cases zero : (a : ZMod prime) = 0
  · rw [zero, mul_zero]
  · obtain ⟨y, root⟩ := square
    rw [← ZMod.natCast_eq_natCast_iff, Nat.cast_mul] at root
    rw [(ZMod.euler_criterion prime zero).mp ⟨y, root.symm⟩, one_mul]

/-- A number is taken for an abscissa exactly if a point of the curve has it. -/
theorem isAbscissa_iff {x : Nat} :
    isAbscissa x = true ↔ x < prime ∧ ∃ y, y * y ≡ x ^ 3 + 7 [MOD prime] := by
  have reduced : cubic x % prime = cubic x := Nat.mod_mod _ prime
  have tested : (rootCandidate (cubic x) * rootCandidate (cubic x) % prime = cubic x) ↔
      rootCandidate (cubic x) * rootCandidate (cubic x) ≡ cubic x [MOD prime] := by
    rw [Nat.ModEq, reduced]
  rw [isAbscissa, Bool.and_eq_true, decide_eq_true_iff, beq_iff_eq, tested]
  constructor
  · intro ⟨below, root⟩
    exact ⟨below, _, root.trans (cubic_modEq x)⟩
  · intro ⟨below, y, root⟩
    exact ⟨below, square_rootCandidate ⟨y, root.trans (cubic_modEq x).symm⟩⟩

end PaymentTarget.Secp256k1
