import PaymentTarget.Proofs.Invoice.Amount

/-! # What an amount is worth

An amount is written with decimal digits that do not start with a zero, and
perhaps with the letter of a multiplier. It is worth a rational number of
millisatoshis. What is read from it is that number itself, never a rounded one
and never one that was cut to 64 bits: an amount that is worth no whole number,
or more than 64 bits hold, is refused.

Because the digits are read by themselves before the multiplier is looked at,
they must fit in 64 bits as well. That refuses amounts in pico whose worth, a
tenth of their digits, would fit.
-/

namespace PaymentTarget

namespace Multiplier

/-- The millisatoshis of a bitcoin, or of the part of it that is counted. -/
def worth : Option Multiplier → ℚ
  | none => 10 ^ 11
  | some .milli => 10 ^ 8
  | some .micro => 10 ^ 5
  | some .nano => 10 ^ 2
  | some .pico => 1 / 10

theorem worth_pos (m : Option Multiplier) : 0 < worth m := by
  cases m with
  | none => norm_num [worth]
  | some m => cases m <;> norm_num [worth]

/-- How a multiplier is written behind the digits. -/
def letters : Option Multiplier → Text
  | none => []
  | some .milli => ['m']
  | some .micro => ['u']
  | some .nano => ['n']
  | some .pico => ['p']

theorem ofChar?_eq_some_iff {c : Char} {m : Multiplier} :
    ofChar? c = some m ↔ letters (some m) = [c] := by
  constructor
  · intro names
    unfold ofChar? at names
    split at names <;> cases names <;> rfl
  · intro written
    cases m <;> cases written <;> rfl

end Multiplier

/-- An amount that can be written. -/
@[ext]
structure Quantity where
  digits : Text
  multiplier : Option Multiplier
  nonempty : digits ≠ []
  decimal : ∀ c ∈ digits, c.isDigit = true
  leads : digits.head? ≠ some '0'

namespace Quantity

variable {q : Quantity}

def text (q : Quantity) : Text :=
  q.digits ++ Multiplier.letters q.multiplier

/-- The number that the digits write. -/
def count (q : Quantity) : Nat :=
  Radix.value 10 (q.digits.map fun c => c.toNat - '0'.toNat)

/-- The exact number of millisatoshis. -/
def msat (q : Quantity) : ℚ :=
  q.count * Multiplier.worth q.multiplier

theorem split_text (q : Quantity) : Amount.split q.text = (q.digits, q.multiplier) := by
  cases stated : q.multiplier with
  | none =>
      have last : q.digits.getLast?.bind Multiplier.ofChar? = none := by
        rw [Option.bind_eq_none_iff]
        intro c final
        have digit := Text.isDigit_iff.mp (q.decimal c (List.mem_of_getLast? final))
        cases names : Multiplier.ofChar? c with
        | none => rfl
        | some m =>
            have lower := Text.isLower_iff.mp (Amount.isLower_of_multiplier names)
            omega
      simp [text, stated, Multiplier.letters, Amount.split, last]
  | some m =>
      cases m <;> simp [text, stated, Multiplier.letters, Amount.split, Multiplier.ofChar?]

theorem text_injective {q r : Quantity} (same : q.text = r.text) : q = r := by
  have parts := congrArg Amount.split same
  rw [split_text, split_text, Prod.mk.injEq] at parts
  exact Quantity.ext parts.1 parts.2

theorem head?_text (q : Quantity) : q.text.head?.all Char.isDigit = true := by
  cases written : q.digits with
  | nil => exact absurd written q.nonempty
  | cons c rest => simp [text, written, q.decimal c (by simp [written])]

theorem text_ne_nil (q : Quantity) : q.text ≠ [] := by
  simp [text, q.nonempty]

theorem count_pos (q : Quantity) : 0 < q.count := by
  have leads := q.leads
  cases written : q.digits with
  | nil => exact absurd written q.nonempty
  | cons c rest =>
      have digit := Text.isDigit_iff.mp (q.decimal c (by simp [written]))
      have notZero : c.toNat ≠ 48 := by
        intro zero
        apply leads
        rw [written, List.head?_cons, Option.some.injEq, ← Char.toNat_inj, zero]
        rfl
      rw [count, written, List.map_cons]
      exact Radix.value_pos _ (by omega) (by simp; omega)

theorem msat_pos (q : Quantity) : 0 < q.msat := by
  have count := q.count_pos
  have unit := Multiplier.worth_pos q.multiplier
  rw [msat]
  positivity

theorem one_le_of_msat {msat : Nat} (exact : (msat : ℚ) = q.msat) : 1 ≤ msat := by
  have positive : (0 : ℚ) < msat := exact ▸ q.msat_pos
  exact_mod_cast positive

end Quantity

namespace Amount

theorem split_append (t : Text) : (split t).1 ++ Multiplier.letters (split t).2 = t := by
  unfold split
  split
  next m names =>
    obtain ⟨c, final, names⟩ := Option.bind_eq_some_iff.mp names
    rw [Multiplier.ofChar?_eq_some_iff.mp names, List.dropLast_append_getLast? c final]
  next => simp [Multiplier.letters]

theorem read_text (q : Quantity) :
    Amount.read q.text =
      if wordBound ≤ q.count then .error .overflow else ofCount q.count q.multiplier := by
  have decimal : (q.digits.isEmpty || !q.digits.all Char.isDigit) = false := by
    simpa [q.nonempty] using q.decimal
  simp only [Amount.read, q.split_text, decimal, q.leads, if_false, Bool.false_eq_true]
  rfl

theorem exists_quantity_of_read {t : Text} {msat : Nat} (read : Amount.read t = .ok msat) :
    ∃ q : Quantity, t = q.text := by
  obtain ⟨nonempty, decimal⟩ := digits_of_read read
  have leads : (split t).1.head? ≠ some '0' := by
    intro zero
    simp only [Amount.read, zero, if_true] at read
    split at read <;> cases read
  exact ⟨⟨(split t).1, (split t).2, nonempty, decimal, leads⟩, (split_append t).symm⟩

theorem bounded_eq_ok_iff {n msat : Nat} :
    bounded n = .ok msat ↔ msat = n ∧ msat < wordBound := by
  unfold bounded
  split
  next small =>
    rw [Except.ok.injEq]
    constructor
    · rintro rfl
      exact ⟨rfl, small⟩
    · intro ⟨same, _⟩
      exact same.symm
  next large =>
    constructor
    · intro stated
      cases stated
    · intro ⟨same, small⟩
      omega

theorem bounded_mul_eq_ok_iff {count unit msat : Nat} {worth : ℚ} (units : worth = unit) :
    bounded (count * unit) = .ok msat ↔ (msat : ℚ) = count * worth ∧ msat < wordBound := by
  rw [bounded_eq_ok_iff, units]
  exact and_congr_left fun _ => by exact_mod_cast Iff.rfl

/-- What is made of a count is its exact worth. -/
theorem ofCount_eq_ok_iff {count msat : Nat} {m : Option Multiplier} (small : count < wordBound) :
    ofCount count m = .ok msat ↔ (msat : ℚ) = count * Multiplier.worth m ∧ msat < wordBound := by
  cases m with
  | none => exact bounded_mul_eq_ok_iff (by norm_num [Multiplier.worth, msatPerBitcoin])
  | some m =>
      cases m with
      | milli => exact bounded_mul_eq_ok_iff (by norm_num [Multiplier.worth, msatPerBitcoin])
      | micro => exact bounded_mul_eq_ok_iff (by norm_num [Multiplier.worth, msatPerBitcoin])
      | nano => exact bounded_mul_eq_ok_iff (by norm_num [Multiplier.worth, msatPerBitcoin])
      | pico =>
          have tenth : (msat : ℚ) = count * Multiplier.worth (some .pico) ↔ 10 * msat = count := by
            rw [Multiplier.worth, mul_one_div, eq_div_iff (by norm_num), mul_comm]
            exact_mod_cast Iff.rfl
          rw [tenth, ofCount]
          split
          next divides =>
            rw [Except.ok.injEq]
            omega
          next fraction =>
            constructor
            · intro stated
              cases stated
            · omega

theorem read_text_eq_ok_iff {q : Quantity} {msat : Nat} :
    Amount.read q.text = .ok msat ↔
      (msat : ℚ) = q.msat ∧ msat < wordBound ∧ q.count < wordBound := by
  rw [read_text]
  split
  next large =>
    constructor
    · intro stated
      cases stated
    · omega
  next fits =>
    have small : q.count < wordBound := by omega
    rw [ofCount_eq_ok_iff small, Quantity.msat]
    tauto

end Amount

namespace InvoiceHrp

/-- The order of the currencies finds the one that is written, since an amount does not start with
    a letter. -/
theorem find?_currency (n : Network) {amount : Text}
    (counted : amount.head?.all Char.isDigit = true) :
    currencyOrder.find? (fun m => m.currency.isPrefixOf (n.currency ++ amount)) = some n := by
  cases amount with
  | nil => cases n <;> rfl
  | cons c rest =>
      have digit : c.isDigit = true := by simpa using counted
      have notS : c ≠ 's' := by rintro rfl; cases digit
      have notR : c ≠ 'r' := by rintro rfl; cases digit
      cases n <;>
        simp [currencyOrder, Network.currency, List.isPrefixOf, Ne.symm notS, Ne.symm notR]

theorem read_currency (n : Network) {amount : Text}
    (counted : amount.head?.all Char.isDigit = true) :
    InvoiceHrp.read (start ++ n.currency ++ amount) =
      if amount.isEmpty then .ok (n, none)
      else
        match Amount.read amount with
        | .error fault => .error (.amount fault amount)
        | .ok msat => .ok (n, some msat) := by
  cases priced : Amount.read amount <;>
    simp [start, InvoiceHrp.read, find?_currency n counted, priced]

theorem read_quantity (n : Network) (q : Quantity) :
    InvoiceHrp.read (start ++ n.currency ++ q.text) =
      match Amount.read q.text with
      | .error fault => .error (.amount fault q.text)
      | .ok msat => .ok (n, some msat) := by
  rw [read_currency n q.head?_text, if_neg (List.isEmpty_iff.not.mpr q.text_ne_nil)]

theorem read_quantity_eq_ok_iff {n : Network} {q : Quantity} {msat : Nat} :
    InvoiceHrp.read (start ++ n.currency ++ q.text) = .ok (n, some msat) ↔
      (msat : ℚ) = q.msat ∧ msat < wordBound ∧ q.count < wordBound := by
  rw [read_quantity, ← Amount.read_text_eq_ok_iff]
  cases Amount.read q.text <;> simp

/-- Only in pico is an amount worth less than its digits say. -/
theorem count_lt_of_msat {q : Quantity} {msat : Nat} (exact : (msat : ℚ) = q.msat)
    (fits : msat < wordBound) (other : q.multiplier ≠ some .pico) : q.count < wordBound := by
  have unit : (1 : ℚ) ≤ Multiplier.worth q.multiplier := by
    cases stated : q.multiplier with
    | none => norm_num [Multiplier.worth]
    | some m =>
        cases m with
        | pico => exact absurd stated other
        | milli => norm_num [Multiplier.worth]
        | micro => norm_num [Multiplier.worth]
        | nano => norm_num [Multiplier.worth]
  have least : (q.count : ℚ) ≤ msat := by
    rw [exact, Quantity.msat]
    exact le_mul_of_one_le_right (by positivity) unit
  exact lt_of_le_of_lt (by exact_mod_cast least) fits

/-- An amount is read just if it is worth a whole number of millisatoshis that fits in 64 bits,
    where digits that count in pico have to fit as well. Any other amount is refused as one. -/
theorem read_iff_worth (n : Network) (q : Quantity) :
    (∀ msat : Nat, InvoiceHrp.read (start ++ n.currency ++ q.text) = .ok (n, some msat) ↔
        (msat : ℚ) = q.msat ∧ msat < 2 ^ 64 ∧
          (q.multiplier = some .pico → q.count < 2 ^ 64)) ∧
      ((∃ msat, InvoiceHrp.read (start ++ n.currency ++ q.text) = .ok (n, some msat)) ∨
        ∃ fault, InvoiceHrp.read (start ++ n.currency ++ q.text) =
          .error (.amount fault q.text)) := by
  constructor
  · intro msat
    rw [read_quantity_eq_ok_iff]
    constructor
    · intro ⟨exact, fits, small⟩
      exact ⟨exact, fits, fun _ => small⟩
    · intro ⟨exact, fits, pico⟩
      refine ⟨exact, fits, ?_⟩
      by_cases counted : q.multiplier = some .pico
      · exact pico counted
      · exact count_lt_of_msat exact fits counted
  · rw [read_quantity]
    cases Amount.read q.text with
    | ok msat => exact .inl ⟨msat, rfl⟩
    | error fault => exact .inr ⟨fault, rfl⟩

/-- Twenty million bitcoins, counted in pico. -/
def twentyMillion : Quantity where
  digits := '2' :: List.replicate 19 '0'
  multiplier := some .pico
  nonempty := by decide
  decimal := List.all_eq_true.mp (by decide)
  leads := by decide

/-- Not every amount is read that is worth a whole number of 64 bits. -/
theorem not_read_of_worth :
    ¬ ∀ (n : Network) (q : Quantity) (msat : Nat), (msat : ℚ) = q.msat → msat < 2 ^ 64 →
      InvoiceHrp.read (start ++ n.currency ++ q.text) = .ok (n, some msat) := by
  intro read
  have worth : ((2000000000000000000 : Nat) : ℚ) = twentyMillion.msat := by
    have count : twentyMillion.count = 20000000000000000000 := by decide +kernel
    rw [Quantity.msat, count]
    norm_num [twentyMillion, Multiplier.worth]
  have stated := read .bitcoin twentyMillion _ worth (by norm_num)
  have refused : InvoiceHrp.read (start ++ Network.bitcoin.currency ++ twentyMillion.text) =
      .error (.amount .overflow twentyMillion.text) := by
    decide +kernel
  rw [refused] at stated
  cases stated

/-- The text is written with this currency and this amount, which may be missing. -/
structure Parts (hrp currency amount : Text) : Prop where
  whole : hrp = start ++ currency ++ amount
  known : ∃ n : Network, n.currency = currency
  amount : amount = [] ∨ ∃ q : Quantity, amount = q.text

theorem Parts.counted {hrp currency amount : Text} (parts : Parts hrp currency amount) :
    amount.head?.all Char.isDigit = true := by
  obtain none | ⟨q, written⟩ := parts.amount
  · rw [none]
    rfl
  · rw [written]
    exact q.head?_text

theorem Parts.unique {hrp c d a b : Text} (first : Parts hrp c a) (second : Parts hrp d b) :
    d = c ∧ b = a := by
  obtain ⟨n, known⟩ := first.known
  obtain ⟨m, known'⟩ := second.known
  have same : start ++ m.currency ++ b = start ++ n.currency ++ a := by
    rw [known, known', ← first.whole, ← second.whole]
  have network := network_unique second.counted first.counted same
  rw [network, List.append_cancel_left_eq] at same
  exact ⟨by rw [← known, ← known', network], same⟩

theorem parts_of_read {hrp : Text} {price : Network × Option Nat}
    (read : InvoiceHrp.read hrp = .ok price) :
    ∃ amount : Text, Parts hrp price.1.currency amount := by
  obtain ⟨amount, whole, none | ⟨msat, stated⟩⟩ := read_eq_ok read
  · exact ⟨amount, whole, ⟨price.1, rfl⟩, .inl none⟩
  · exact ⟨amount, whole, ⟨price.1, rfl⟩, .inr (Amount.exists_quantity_of_read stated)⟩

/-- The price of a text is that of its amount, if there is one. -/
theorem Parts.price {hrp a : Text} {network : Network} {amountMsat : Option Nat}
    (parts : Parts hrp network.currency a)
    (read : InvoiceHrp.read hrp = .ok (network, amountMsat)) :
    (amountMsat = none ∧ a = []) ∨
      ∃ (msat : Nat) (q : Quantity), amountMsat = some msat ∧ a = q.text ∧
        (msat : ℚ) = q.msat ∧ msat < wordBound := by
  have whole := parts.whole
  obtain none | ⟨q, written⟩ := parts.amount
  · have nothing := read_currency network parts.counted
    rw [← whole, read, none, List.isEmpty_nil, if_pos rfl, Except.ok.injEq,
      Prod.mk.injEq] at nothing
    exact .inl ⟨nothing.2, none⟩
  · rw [written] at whole
    rw [whole] at read
    cases amountMsat with
    | none =>
        rw [read_quantity] at read
        split at read <;> cases read
    | some msat =>
        obtain ⟨exact, fits, -⟩ := read_quantity_eq_ok_iff.mp read
        exact .inr ⟨msat, q, rfl, written, exact, fits⟩

theorem one_le_of_read {hrp : Text} {network : Network} {msat : Nat}
    (read : InvoiceHrp.read hrp = .ok (network, some msat)) : 1 ≤ msat := by
  obtain ⟨a, parts⟩ := parts_of_read read
  obtain ⟨none, -⟩ | ⟨v, q, same, -, exact, -⟩ := parts.price read
  · cases none
  · rw [Option.some.inj same]
    exact Quantity.one_le_of_msat exact

/-- What is read from a human-readable part is the only way to read it, and the amount is exact. -/
theorem parts_unique_and_exact {hrp : Text} {network : Network} {amountMsat : Option Nat}
    (read : InvoiceHrp.read hrp = .ok (network, amountMsat)) :
    ∃ c a, Parts hrp c a ∧ (∀ d b, Parts hrp d b → d = c ∧ b = a) ∧
      (∀ n : Network, n.currency = c ↔ n = network) ∧ (amountMsat = none ↔ a = []) ∧
      ∀ msat, amountMsat = some msat → 1 ≤ msat ∧ msat ≤ 2 ^ 64 - 1 ∧
        ∃ q : Quantity, a = q.text ∧ (∀ r : Quantity, a = r.text → r = q) ∧
          (msat : ℚ) = q.msat := by
  obtain ⟨a, parts⟩ := parts_of_read read
  refine ⟨network.currency, a, parts, fun d b other => parts.unique other,
    fun n => currency_inj, ?_⟩
  obtain ⟨none, empty⟩ | ⟨msat, q, some, written, exact, fits⟩ := parts.price read
  · simp [none, empty]
  · refine ⟨by simp [some, written, q.text_ne_nil], ?_⟩
    intro v same
    have value : v = msat := Option.some.inj (same.symm.trans some)
    rw [value]
    refine ⟨Quantity.one_le_of_msat exact, Nat.le_sub_one_of_lt fits, q, written, ?_, exact⟩
    intro r same
    exact Quantity.text_injective (same.symm.trans written)

theorem parts_unique_and_exact_of_signet :
    let hrp := "lntbs9678785340p".toList
    InvoiceHrp.read hrp = .ok (.signet, some 967878534) ∧
      ∃ c a, Parts hrp c a ∧ (∀ d b, Parts hrp d b → d = c ∧ b = a) ∧
        (∀ n : Network, n.currency = c ↔ n = .signet) ∧
        ∃ q : Quantity, a = q.text ∧ ((967878534 : Nat) : ℚ) = q.msat := by
  intro hrp
  have read : InvoiceHrp.read hrp = .ok (.signet, some 967878534) := by decide +kernel
  obtain ⟨c, a, parts, unique, network, -, exact⟩ := parts_unique_and_exact read
  obtain ⟨-, -, q, written, -, worth⟩ := exact _ rfl
  exact ⟨read, c, a, parts, unique, network, q, written, worth⟩

end InvoiceHrp

end PaymentTarget
