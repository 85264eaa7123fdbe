import PaymentTarget.Proofs.Invoice.Layout
import PaymentTarget.Proofs.Invoice.Price
import PaymentTarget.Proofs.Node.Key

/-! # What an accepted invoice can hold

Fields come in any number and any order, and a later one may override what an
earlier one has stated. Each field keeps the details in range, because it is
read for a payload of a certain length only, and so do all fields together. The
timestamp has a fixed length as well. The end of an invoice is therefore far
below the number at which it would be cut off.
-/

namespace PaymentTarget

namespace Invoice

/-- A payment hash has thirty-two bytes, and an expiry time twelve digits of base 32. -/
structure Details.InRange (d : Details) : Prop where
  paymentHash : ∀ hash, d.paymentHash = some hash → hash.length = 32
  expirySecs : ∀ secs, d.expirySecs = some secs → secs < 2 ^ 60

namespace Details

theorem inRange_add {d d' : Details} {f : Field} (inRange : d.InRange)
    (added : d.add f = .ok d') : d'.InRange := by
  unfold add at added
  split at added
  next hash =>
    rw [← Except.ok.inj added]
    refine ⟨?_, inRange.expirySecs⟩
    intro bytes stated
    rw [← Option.some.inj stated, length_bytesOfSymbols, hash.2]
    rfl
  · split at added
    · split at added
      · rw [← Except.ok.inj added]
        exact ⟨inRange.paymentHash, inRange.expirySecs⟩
      · cases added
    · split at added
      next expiry =>
        rw [← Except.ok.inj added]
        refine ⟨inRange.paymentHash, ?_⟩
        intro secs stated
        have width : 32 ^ f.payload.length ≤ 32 ^ 12 :=
          Nat.pow_le_pow_right (by decide) expiry.2.2
        have number := numberOfSymbols_lt expiry.2.2
        rw [← Option.some.inj stated]
        omega
      · split at added
        · split at added
          · rw [← Except.ok.inj added]
            exact ⟨inRange.paymentHash, inRange.expirySecs⟩
          · cases added
        · rwa [← Except.ok.inj added]

theorem inRange_ofFields {fields : List Field} {d : Details} (stated : ofFields fields = .ok d) :
    d.InRange := by
  induction fields using List.reverseRecOn generalizing d with
  | nil =>
      obtain rfl : {} = d := Except.ok.inj stated
      exact ⟨by simp, by simp⟩
  | append_singleton fields f ih =>
      rw [ofFields_concat, bind_eq_ok_iff] at stated
      obtain ⟨before, early, last⟩ := stated
      exact inRange_add (ih early) last

end Details

theorem expiresAt_eq_add {timestamp expirySecs : Nat} (early : timestamp < 2 ^ 35)
    (short : expirySecs < 2 ^ 60) : expiresAt timestamp expirySecs = timestamp + expirySecs := by
  have top : wordBound = 2 ^ 64 := rfl
  rw [expiresAt, top]
  exact Nat.min_eq_left (by omega)

/-- Every part of an invoice is in range, and its end is not cut off. -/
structure InRange (i : Invoice) : Prop where
  timestamp : i.timestamp < 2 ^ 35
  expirySecs : i.expirySecs < 2 ^ 60
  paymentHash : (Hex.encode i.paymentHash).length = 64 ∧
    ∀ c ∈ Hex.encode i.paymentHash, c ∈ "0123456789abcdef".toList
  amountMsat : ∀ msat, i.amountMsat = some msat → 1 ≤ msat
  payee : ∀ key, i.payee = some key → NodeKey.read key.toHex = .ok key
  expiresAt : Invoice.expiresAt i.timestamp i.expirySecs = i.timestamp + i.expirySecs

theorem Layout.States.inRange {l : Layout} {i : Invoice} (states : l.States i)
    (measured : l.Measured) (acceptable : l.Acceptable) : i.InRange := by
  have details : (Details.stated l.fields).InRange :=
    Details.inRange_ofFields (Details.ofFields_eq_ok_iff.mpr ⟨acceptable.sound, rfl⟩)
  have timestamp : i.timestamp < 2 ^ 35 := by
    have number := value_symbols_lt l.timestamp
    rwa [measured.timestamp, ← states.timestamp] at number
  have expirySecs : i.expirySecs < 2 ^ 60 := by
    rw [states.expirySecs]
    cases stated : (Details.stated l.fields).expirySecs with
    | none => decide
    | some secs => exact details.expirySecs secs stated
  have digits : ∀ n < 16, Nat.digitChar n ∈ "0123456789abcdef".toList := by decide
  refine ⟨timestamp, expirySecs, ⟨?_, ?_⟩, ?_, fun key _ => NodeKey.read_toHex key,
    expiresAt_eq_add timestamp expirySecs⟩
  · rw [Hex.length_encode, details.paymentHash _ states.paymentHash]
  · intro c member
    obtain ⟨n, below, rfl⟩ := Hex.exists_digit_of_mem_encode member
    exact digits n below
  · intro msat priced
    have price := states.price
    rw [priced] at price
    exact InvoiceHrp.one_le_of_read price

/-- Whatever fields an accepted invoice has, and in whatever order, it is in range. -/
theorem inRange_of_read {t : Text} {i : Invoice} (read : Invoice.read t = .ok i) : i.InRange := by
  obtain ⟨l, writes, measured, acceptable⟩ := Layout.exists_of_read read
  have sound := acceptable.fault? measured
  obtain ⟨-, states⟩ := (Layout.read_eq_ok_iff writes measured sound).mp read
  exact states.inRange measured acceptable

/-- The last timestamp and the longest expiry time, which overrides the shortest one. -/
def Layout.latest : Layout where
  hrp := ['l', 'n', 'b', 'c', '1', '0', 'p']
  timestamp := List.replicate timestampLength 31#5
  fields := [⟨Field.expiryTag, [0#5]⟩, ⟨Field.hashTag, List.replicate hashLength 31#5⟩,
    ⟨Field.expiryTag, List.replicate maxExpiryLength 31#5⟩]
  signature := List.replicate signatureLength 0#5

theorem inRange_of_read_latest :
    ∃ i, Invoice.read Layout.latest.write = .ok i ∧ i.InRange ∧ i.amountMsat = some 1 ∧
      i.timestamp = 2 ^ 35 - 1 ∧ i.expirySecs = 2 ^ 60 - 1 := by
  have stated : (Invoice.read Layout.latest.write).map
      (fun i => (i.amountMsat, i.timestamp, i.expirySecs)) =
        .ok (some 1, 2 ^ 35 - 1, 2 ^ 60 - 1) := by
    decide +kernel
  obtain ⟨i, read, parts⟩ := map_eq_ok_iff.mp stated
  rw [Prod.mk.injEq, Prod.mk.injEq] at parts
  exact ⟨i, read, inRange_of_read read, parts⟩

end Invoice

end PaymentTarget
