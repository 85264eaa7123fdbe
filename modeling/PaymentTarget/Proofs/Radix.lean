import Mathlib
import PaymentTarget.Radix

/-! # Numerals of a number

How many digits a number has, and which digit leads, says between which powers
of the base it lies. The leading digit of a number is not zero, and digits that
do not start with a zero are those of the number they write. So a numeral can
be moved to another base and back, when its leading zeros are carried along.
-/

namespace PaymentTarget.Radix

theorem value_cons (base d : Nat) (ds : List Nat) :
    value base (d :: ds) = d * base ^ ds.length + value base ds := by
  induction ds using List.reverseRecOn with
  | nil => simp [value]
  | append_singleton ds e ih =>
      rw [← List.cons_append, value_concat, value_concat, ih, List.length_append,
        List.length_singleton, pow_succ]
      ring

theorem value_lt {base : Nat} {ds : List Nat} (below : ∀ d ∈ ds, d < base) :
    value base ds < base ^ ds.length := by
  induction ds with
  | nil => simp [value]
  | cons d ds ih =>
      have head : d < base := below d List.mem_cons_self
      have tail := ih fun e member => below e (List.mem_cons_of_mem d member)
      calc
        value base (d :: ds) = d * base ^ ds.length + value base ds := value_cons base d ds
        _ < (d + 1) * base ^ ds.length := by rw [Nat.add_mul, Nat.one_mul]; omega
        _ ≤ base * base ^ ds.length := Nat.mul_le_mul_right _ head
        _ = base ^ (d :: ds).length := by rw [List.length_cons, pow_succ, Nat.mul_comm]

theorem value_eq_ofDigits (base : Nat) (ds : List Nat) :
    value base ds = Nat.ofDigits base ds.reverse := by
  induction ds with
  | nil => simp [value]
  | cons d ds ih =>
      rw [value_cons, ih, Nat.ofDigits_reverse_cons]
      ring

/-- Digits are fixed by how many they are and by the number that they write. -/
theorem value_inj {base : Nat} {ds es : List Nat} (hb : 1 < base) (length : ds.length = es.length)
    (below : ∀ d ∈ ds, d < base) (below' : ∀ e ∈ es, e < base)
    (same : value base ds = value base es) : ds = es := by
  rw [value_eq_ofDigits, value_eq_ofDigits] at same
  have reversed : ds.reverse = es.reverse :=
    Nat.ofDigits_inj_of_len_eq hb (by simpa using length)
      (fun d member => below d (List.mem_reverse.mp member))
      (fun e member => below' e (List.mem_reverse.mp member)) same
  exact List.reverse_injective reversed

/-- The leading digit and the number of digits behind it bound a number on both sides. -/
theorem value_bounds {base d : Nat} {ds : List Nat} (below : ∀ e ∈ ds, e < base) :
    d * base ^ ds.length ≤ value base (d :: ds) ∧
      value base (d :: ds) < (d + 1) * base ^ ds.length := by
  have tail := value_lt below
  rw [value_cons, Nat.add_mul, Nat.one_mul]
  omega

theorem digits_zero (base : Nat) : digits base 0 = [] := by
  rw [digits]
  simp

theorem digits_lt {base n d : Nat} (member : d ∈ digits base n) : d < base := by
  induction n using Nat.strongRecOn with
  | ind n ih =>
      rw [digits] at member
      split at member
      next h =>
        rcases List.mem_append.mp member with early | last
        · exact ih _ (Nat.div_lt_self h.1 h.2) early
        · rw [List.mem_singleton.mp last]
          exact Nat.mod_lt n (by omega)
      next => cases member

theorem digits_eq_nil {base n : Nat} (hb : 1 < base) (empty : digits base n = []) : n = 0 := by
  rw [← value_digits hb n, empty]
  rfl

theorem head_digits_ne_zero {base n d : Nat} {ds : List Nat} (h : digits base n = d :: ds) :
    d ≠ 0 := by
  induction n using Nat.strongRecOn generalizing d ds with
  | ind n ih =>
      rw [digits] at h
      split at h
      next positive =>
        cases early : digits base (n / base) with
        | nil =>
            -- Nothing stands in front of the last digit, so it is the number itself.
            have quotient : n / base = 0 := digits_eq_nil positive.2 early
            have whole := Nat.div_add_mod n base
            rw [early, List.nil_append, List.cons.injEq] at h
            rw [quotient] at whole
            omega
        | cons e es =>
            rw [early, List.cons_append, List.cons.injEq] at h
            obtain ⟨rfl, -⟩ := h
            exact ih _ (Nat.div_lt_self positive.1 positive.2) early
      next => cases h

theorem value_zeros (base zeros : Nat) (ds : List Nat) :
    value base (List.replicate zeros 0 ++ ds) = value base ds := by
  induction zeros with
  | zero => simp
  | succ zeros ih => simp [List.replicate_succ, value_cons, ih]

theorem digits_step {base n d : Nat} (hb : 1 < base) (last : d < base) (positive : 0 < base * n + d) :
    digits base (base * n + d) = digits base n ++ [d] := by
  rw [digits, dif_pos ⟨positive, hb⟩, Nat.mul_add_div (by omega), Nat.div_eq_of_lt last,
    Nat.mul_add_mod, Nat.mod_eq_of_lt last, Nat.add_zero]

theorem value_pos {base d : Nat} (ds : List Nat) (hb : 0 < base) (leads : d ≠ 0) :
    0 < value base (d :: ds) := by
  have power : 0 < d * base ^ ds.length := Nat.mul_pos (by omega) (Nat.pow_pos hb)
  rw [value_cons]
  omega

/-- Digits that do not start with a zero are those of the number they write. -/
theorem digits_value {base : Nat} {ds : List Nat} (hb : 1 < base) (below : ∀ d ∈ ds, d < base)
    (leads : ds.head? ≠ some 0) : digits base (value base ds) = ds := by
  induction ds using List.reverseRecOn with
  | nil => exact digits_zero base
  | append_singleton ds d ih =>
      have last : d < base := below d (by simp)
      have below : ∀ e ∈ ds, e < base := fun e member => below e (by simp [member])
      rw [value_concat]
      cases ds with
      | nil =>
          have positive : d ≠ 0 := by simpa using leads
          rw [digits_step hb last (by omega), ih below (by simp)]
      | cons e es =>
          have first : e ≠ 0 := by simpa using leads
          have number : 0 < value base (e :: es) := value_pos es (by omega) first
          have positive := Nat.add_pos_left (Nat.mul_pos (show 0 < base by omega) number) d
          rw [digits_step hb last positive, ih below (by simpa using first)]

/-- A numeral with leading zeros, in another base: the zeros stay, the number is rewritten. -/
def convert (source target : Nat) (ds : List Nat) : List Nat :=
  List.replicate (ds.takeWhile (· == 0)).length 0 ++ digits target (value source ds)

theorem leading_zeros (ds : List Nat) :
    ∃ rest, ds = List.replicate (ds.takeWhile (· == 0)).length 0 ++ rest ∧
      rest.head? ≠ some 0 := by
  refine ⟨ds.dropWhile (· == 0), ?_, ?_⟩
  · have zeros : ds.takeWhile (· == 0) = List.replicate (ds.takeWhile (· == 0)).length 0 := by
      apply List.eq_replicate_of_mem
      intro d member
      simpa using List.mem_takeWhile_imp member
    rw [← zeros, List.takeWhile_append_dropWhile]
  · intro first
    have := List.head?_dropWhile_not (· == 0) ds
    simp [first] at this

theorem takeWhile_zeros (zeros : Nat) {rest : List Nat} (leads : rest.head? ≠ some 0) :
    (List.replicate zeros 0 ++ rest).takeWhile (· == 0) = List.replicate zeros 0 := by
  induction zeros with
  | zero =>
      cases rest with
      | nil => rfl
      | cons d ds => simpa using leads
  | succ zeros ih => simp [List.replicate_succ, ih]

theorem convert_zeros {source target : Nat} (zeros : Nat) {rest : List Nat}
    (leads : rest.head? ≠ some 0) :
    convert source target (List.replicate zeros 0 ++ rest) =
      List.replicate zeros 0 ++ digits target (value source rest) := by
  rw [convert, takeWhile_zeros zeros leads, List.length_replicate, value_zeros]

theorem head?_digits (base n : Nat) : (digits base n).head? ≠ some 0 := by
  cases written : digits base n with
  | nil => simp
  | cons d ds => simpa using head_digits_ne_zero written

/-- A numeral comes back from any other base. -/
theorem convert_convert {source target : Nat} {ds : List Nat} (hs : 1 < source) (ht : 1 < target)
    (below : ∀ d ∈ ds, d < source) : convert target source (convert source target ds) = ds := by
  obtain ⟨rest, whole, leads⟩ := leading_zeros ds
  rw [whole] at below ⊢
  rw [convert_zeros _ leads, convert_zeros _ (head?_digits _ _), value_digits ht,
    digits_value hs (fun d member => below d (by simp [member])) leads]

theorem length_digits_le {base n width : Nat} (hb : 1 < base) (small : n < base ^ width) :
    (digits base n).length ≤ width := by
  cases written : digits base n with
  | nil => simp
  | cons d ds =>
      have leads : 0 < d := Nat.pos_of_ne_zero (head_digits_ne_zero written)
      have below : ∀ e ∈ ds, e < base := fun e member =>
        digits_lt (written ▸ List.mem_cons_of_mem d member)
      have bounds := value_bounds (d := d) below
      rw [← written, value_digits hb] at bounds
      have power : base ^ ds.length < base ^ width := by
        have := Nat.le_mul_of_pos_left (base ^ ds.length) leads
        omega
      exact (Nat.pow_lt_pow_iff_right hb).mp power

theorem lt_length_digits {base n width : Nat} (hb : 1 < base) (large : base ^ width ≤ n) :
    width < (digits base n).length := by
  have bound := value_lt fun d (member : d ∈ digits base n) => digits_lt member
  rw [value_digits hb] at bound
  exact (Nat.pow_lt_pow_iff_right hb).mp (large.trans_lt bound)

theorem convert_lt {source target d : Nat} {ds : List Nat} (ht : 0 < target)
    (member : d ∈ convert source target ds) : d < target := by
  rcases List.mem_append.mp member with zero | digit
  · rw [List.eq_of_mem_replicate zero]
    exact ht
  · exact digits_lt digit

end PaymentTarget.Radix
