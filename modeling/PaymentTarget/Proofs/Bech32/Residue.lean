import PaymentTarget.Bech32.Word
import PaymentTarget.Proofs.Bech32.Number

/-! # The checksum is determined

The last six symbols of a word reach the residue without any feedback, so that
they write its six base-32 digits. Together with the linearity of a step this
leaves exactly one choice of six symbols behind any sequence. A step also loses
nothing of the residue it starts from, so that what six neighbouring symbols
change is not undone by any number of symbols behind them.
-/

namespace PaymentTarget

namespace Residue

theorem absorb_concat (r : Residue) (symbols : List Symbol) (s : Symbol) :
    r.absorb (symbols ++ [s]) = (r.absorb symbols).step s := by
  simp only [absorb, List.foldl_append, List.foldl_cons, List.foldl_nil]

/-- A residue whose top symbol is zero only moves up to make room for the next symbol. -/
theorem toNat_step {r : Residue} (small : r.toNat < 2 ^ 25) (s : Symbol) :
    (r.step s).toNat = 32 * r.toNat + s.toNat := by
  have below : s.toNat < 2 ^ 5 := s.isLt
  have top : r.extractLsb' 25 5 = 0#5 := by
    apply BitVec.eq_of_toNat_eq
    rw [BitVec.extractLsb'_toNat, Nat.shiftRight_eq_div_pow, Nat.div_eq_of_lt small]
    rfl
  have moved : (r <<< 5).toNat = 2 ^ 5 * r.toNat := by
    rw [BitVec.toNat_shiftLeft, Nat.shiftLeft_eq]
    omega
  have widened : (s.setWidth 30).toNat = s.toNat := by
    rw [BitVec.toNat_setWidth]
    omega
  have disjoint : 2 ^ 5 * r.toNat ^^^ s.toNat = 2 ^ 5 * r.toNat + s.toNat := by
    apply Nat.eq_of_testBit_eq
    intro i
    rw [Nat.testBit_xor, Nat.testBit_two_pow_mul_add _ below, Nat.testBit_two_pow_mul]
    by_cases low : i < 5
    · simp [low, Nat.not_le.mpr low]
    · have high : s.toNat.testBit i = false :=
        Nat.testBit_lt_two_pow (lt_of_lt_of_le below (Nat.pow_le_pow_right (by omega) (by omega)))
      simp [low, high, Nat.not_lt.mp low]
  have quiet : feedback 0#5 = 0#30 := by decide
  rw [step, top, quiet, BitVec.xor_zero, BitVec.toNat_xor, moved, widened, disjoint]
  norm_num

theorem toNat_absorb_zero {symbols : List Symbol} (short : symbols.length ≤ 6) :
    (absorb 0#30 symbols).toNat = Radix.value 32 (symbols.map BitVec.toNat) := by
  induction symbols using List.reverseRecOn with
  | nil => rfl
  | append_singleton symbols s ih =>
      rw [List.length_append, List.length_singleton] at short
      have before := ih (by omega)
      have small : (absorb 0#30 symbols).toNat < 2 ^ 25 := by
        have bound := value_symbols_lt symbols
        have : 32 ^ symbols.length ≤ 32 ^ 5 := Nat.pow_le_pow_right (by omega) (by omega)
        omega
      rw [absorb_concat, toNat_step small, before, List.map_append, List.map_singleton,
        Radix.value_concat]

theorem toSymbols_absorb_zero {symbols : List Symbol} (six : symbols.length = checksumLength) :
    (absorb 0#30 symbols).toSymbols = symbols := by
  have number := toNat_absorb_zero (Nat.le_of_eq six)
  match symbols, six with
  | [a, b, c, d, e, f], _ =>
      have ha := a.isLt
      have hb := b.isLt
      have hc := c.isLt
      have hd := d.isLt
      have he := e.isLt
      have hf := f.isLt
      simp only [Radix.value, List.map_cons, List.map_nil, List.foldl_cons, List.foldl_nil] at number
      simp only [toSymbols, List.cons.injEq, and_true]
      refine ⟨?_, ?_, ?_, ?_, ?_, ?_⟩ <;>
        apply BitVec.eq_of_toNat_eq <;>
        rw [BitVec.extractLsb'_toNat, number, Nat.shiftRight_eq_div_pow] <;>
        omega

theorem absorb_zero_toSymbols (r : Residue) : absorb 0#30 r.toSymbols = r := by
  apply BitVec.eq_of_toNat_eq
  have bound := r.isLt
  rw [toNat_absorb_zero (by simp [toSymbols])]
  simp only [toSymbols, Radix.value, List.map_cons, List.map_nil, List.foldl_cons, List.foldl_nil,
    BitVec.extractLsb'_toNat, Nat.shiftRight_eq_div_pow]
  omega

theorem absorb_xor (r q : Residue) {xs ys : List Symbol} (same : xs.length = ys.length) :
    (r ^^^ q).absorb (List.zipWith (· ^^^ ·) xs ys) = r.absorb xs ^^^ q.absorb ys := by
  induction xs generalizing ys r q with
  | nil =>
      cases ys with
      | nil => rfl
      | cons => cases same
  | cons x xs ih =>
      cases ys with
      | nil => cases same
      | cons y ys =>
          rw [List.length_cons, List.length_cons, Nat.add_right_cancel_iff] at same
          show absorb ((r ^^^ q).step (x ^^^ y)) (List.zipWith (· ^^^ ·) xs ys) = _
          rw [step_xor]
          exact ih (r.step x) (q.step y) same

theorem zipWith_xor_zeros (symbols : List Symbol) :
    List.zipWith (· ^^^ ·) (List.replicate symbols.length 0#5) symbols = symbols := by
  induction symbols with
  | nil => rfl
  | cons s symbols ih =>
      simp only [List.length_cons, List.replicate_succ, List.zipWith_cons_cons, BitVec.zero_xor, ih]

/-- The contribution of the symbols is added to what zeros in their place would leave. -/
theorem absorb_eq_xor (r : Residue) (symbols : List Symbol) :
    r.absorb symbols =
      r.absorb (List.replicate symbols.length 0#5) ^^^ absorb 0#30 symbols := by
  have split : (r ^^^ 0#30).absorb
        (List.zipWith (· ^^^ ·) (List.replicate symbols.length 0#5) symbols) =
      r.absorb (List.replicate symbols.length 0#5) ^^^ absorb 0#30 symbols :=
    absorb_xor r 0#30 List.length_replicate
  rwa [BitVec.xor_zero, zipWith_xor_zeros] at split

/-- The lowest symbol shows what was fed back, because all else there was shifted away. -/
theorem eq_zero_of_step {r : Residue} (gone : r.step 0#5 = 0#30) : r = 0#30 := by
  have shown : ∀ s : Symbol, (feedback s).extractLsb' 0 5 = 0#5 → s = 0#5 := by decide
  have moved : (r <<< 5).extractLsb' 0 5 = 0#5 := by
    apply BitVec.eq_of_toNat_eq
    rw [BitVec.extractLsb'_toNat, BitVec.toNat_shiftLeft, Nat.shiftLeft_eq, Nat.shiftRight_zero]
    show r.toNat * 2 ^ 5 % 2 ^ 30 % 2 ^ 5 = 0
    omega
  have low := congrArg (BitVec.extractLsb' 0 5) gone
  have zeros : (0#5).setWidth 30 = 0#30 := by decide
  rw [step, zeros, BitVec.xor_zero, BitVec.extractLsb'_xor, moved, BitVec.zero_xor] at low
  have top : r.extractLsb' 25 5 = 0#5 := shown _ low
  have bound := r.isLt
  have small : r.toNat < 2 ^ 25 := by
    have number := congrArg BitVec.toNat top
    rw [BitVec.extractLsb'_toNat, Nat.shiftRight_eq_div_pow, BitVec.toNat_ofNat] at number
    omega
  have number := toNat_step small 0#5
  apply BitVec.eq_of_toNat_eq
  rw [gone] at number
  simp only [BitVec.toNat_ofNat] at number ⊢
  omega

theorem step_injective (s : Symbol) : Function.Injective fun r : Residue => r.step s := by
  intro r q same
  have difference : (r ^^^ q).step (s ^^^ s) = 0#30 := by
    rw [step_xor, show r.step s = q.step s from same, BitVec.xor_self]
  rw [BitVec.xor_self] at difference
  exact BitVec.xor_eq_zero_iff.mp (eq_zero_of_step difference)

theorem absorb_injective (symbols : List Symbol) :
    Function.Injective fun r : Residue => r.absorb symbols := by
  induction symbols with
  | nil => exact Function.injective_id
  | cons s symbols ih => exact ih.comp (step_injective s)

theorem absorb_zeros (count : Nat) : absorb 0#30 (List.replicate count 0#5) = 0#30 := by
  induction count with
  | zero => rfl
  | succ count ih => exact ih

theorem eq_of_absorb_zero {xs ys : List Symbol} (same : xs.length = ys.length)
    (short : xs.length ≤ checksumLength) (equal : absorb 0#30 xs = absorb 0#30 ys) : xs = ys := by
  let zeros := List.replicate (checksumLength - xs.length) 0#5
  -- Zeros in front fill both up to six symbols and leave the residue as it is.
  have filled (symbols : List Symbol) : absorb 0#30 (zeros ++ symbols) = absorb 0#30 symbols := by
    rw [absorb_append, absorb_zeros]
  have first : (zeros ++ xs).length = checksumLength := by
    rw [List.length_append, List.length_replicate]
    omega
  have second : (zeros ++ ys).length = checksumLength := by
    rw [List.length_append, List.length_replicate]
    omega
  have read := toSymbols_absorb_zero first
  rw [filled, equal, ← filled, toSymbols_absorb_zero second] at read
  exact (List.append_cancel_left read).symm

/-- Six neighbouring symbols are settled by the residue and by all symbols around them. -/
theorem eq_of_absorb_eq {r : Residue} {before xs ys after : List Symbol}
    (same : xs.length = ys.length) (short : xs.length ≤ checksumLength)
    (equal : r.absorb (before ++ (xs ++ after)) = r.absorb (before ++ (ys ++ after))) :
    xs = ys := by
  simp only [absorb_append] at equal
  have inner := absorb_injective after equal
  rw [absorb_eq_xor _ xs, absorb_eq_xor _ ys, same] at inner
  exact eq_of_absorb_zero same short ((BitVec.xor_right_inj _).mp inner)

end Residue

/-- Six symbols complete a sequence to the residue of a variant only if they are its checksum. -/
theorem ChecksumVariant.residue_append_iff (v : ChecksumVariant) (data : List Symbol)
    {tail : List Symbol} (six : tail.length = checksumLength) :
    Residue.ofSymbols (data ++ tail) = v.residue ↔ tail = v.checksum data := by
  have split : Residue.ofSymbols (data ++ tail) =
      Residue.ofSymbols (data ++ List.replicate checksumLength 0#5) ^^^
        Residue.absorb 0#30 tail := by
    simp only [Residue.ofSymbols, Residue.absorb_append]
    rw [Residue.absorb_eq_xor, six]
  rw [split, checksum]
  constructor
  · intro valid
    rw [← valid, ← BitVec.xor_assoc, BitVec.xor_self, BitVec.zero_xor,
      Residue.toSymbols_absorb_zero six]
  · intro same
    rw [same, Residue.absorb_zero_toSymbols, ← BitVec.xor_assoc, BitVec.xor_self, BitVec.zero_xor]

end PaymentTarget
