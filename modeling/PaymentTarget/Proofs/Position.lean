import PaymentTarget.Proofs.Address.Segwit
import PaymentTarget.Proofs.Base58
import PaymentTarget.Proofs.Invoice.Position
import PaymentTarget.Address.Legacy
import PaymentTarget.Invoice.Draft

/-! # Readers without traps

What the readers of invoices and addresses rely on is so for every text: that
the parts they cut out are in range, and that what an earlier check has excluded
does not come. In a Base58 address the checksum has its four bytes because a byte
needs two digits at most.
-/

namespace PaymentTarget

open Stop

namespace Address

/-- Reads a Base58 address, with its bytes by their index. -/
def readBase58ByPositions (t : Text) : Except Stop Address :=
  if t.size < base58Sizes.1 ∨ base58Sizes.2 < t.size then
    .error (.refused (.address (.base58Size t.size)))
  else
    match Base58.decode? t with
    | none => .error (.refused (.address .base58Character))
    | some bytes => do
        let length ← difference bytes.length Base58.checksumLength
        let (payload, found) ← cut length bytes
        let calculated := Base58.checksum payload
        if calculated ≠ found then .error (.refused (.base58Checksum calculated found))
        else if payload.length ≠ base58PayloadLength then
          .error (.refused (.address (.payloadLength payload.length)))
        else do
          let version ← need .position payload[0]?
          match ofVersionByte? version with
          | none => .error (.refused (.address (.versionByte version)))
          | some address => return address

theorem checksumLength_le_of_decode? {t : Text} {bytes : List UInt8}
    (decoded : Base58.decode? t = some bytes) (long : base58Sizes.1 ≤ t.size) :
    Base58.checksumLength ≤ bytes.length := by
  have digits := Base58.size_encode_le_double bytes
  rw [← Base58.decode?_eq_some_iff.mp decoded] at digits
  rw [base58Sizes] at long
  rw [Base58.checksumLength]
  omega

theorem readBase58ByPositions_eq (t : Text) : readBase58ByPositions t = lift (readBase58 t) := by
  unfold readBase58ByPositions readBase58
  split
  next => rfl
  next sized =>
    cases decoded : Base58.decode? t with
    | none => rfl
    | some bytes =>
        have long : Base58.checksumLength ≤ bytes.length :=
          checksumLength_le_of_decode? decoded (by omega)
        simp only [difference_of_le long, cut_of_le (Nat.sub_le bytes.length _), ok_bind]
        generalize bytes.take (bytes.length - Base58.checksumLength) = payload
        generalize bytes.drop (bytes.length - Base58.checksumLength) = found
        split
        next => rfl
        next =>
          rw [ofPayload]
          split
          next => rfl
          next whole =>
            cases payload with
            | nil => exact absurd (by decide) whole
            | cons version rest =>
                simp only [List.getElem?_cons_zero, need_some, ok_bind, List.headD_cons]
                cases ofVersionByte? version <;> rfl

theorem ofWitness?_ne_none {version : Symbol} {length : Nat}
    (allowed : SegwitProgram.Allowed version length) :
    AddressKind.ofWitness? version length ≠ none := by
  have fits := allowed.fits
  simp only [SegwitProgram.isLength, Bool.and_eq_true, Bool.or_eq_true, bne_iff_ne,
    beq_iff_eq] at fits
  unfold AddressKind.ofWitness?
  split
  next zero =>
    rcases fits.2 with (nonzero | key) | script
    · exact absurd zero nonzero
    · simp [key]
    · simp [script]
  next => split <;> simp

/-- The length of a program of version 0 is settled before it is asked what it pays to. -/
theorem readSegwit_ne_witnessLength (t : Text) (n : Nat) :
    readSegwit t ≠ .error (.address (.witnessLength n)) := by
  intro refused
  unfold readSegwit at refused
  split at refused
  · cases refused
  · split at refused
    · cases refused
    next p program =>
      obtain ⟨allowed, -⟩ := SegwitProgram.read?_eq_some_iff.mp program
      split at refused
      · cases refused
      · split at refused
        next unpaid => exact ofWitness?_ne_none allowed unpaid
        · cases refused

end Address

/-- What the readers rely on is so for this text. -/
structure TrapFree (t : Text) : Prop where
  data : ∀ w, Word.read? t = some w → w.checks .bech32 = true → w.IsCutFrom t
  invoice : Invoice.readByPositions t = lift (Invoice.read t)
  invoiceTrap : ∀ trap, Invoice.readByPositions t ≠ .error (.trap trap)
  amount : Amount.splitByPositions t = .ok (Amount.split t)
  segwit : ∀ n, Address.readSegwit t ≠ .error (.address (.witnessLength n))
  base58 : Address.readBase58ByPositions t = lift (Address.readBase58 t)
  base58Trap : ∀ trap, Address.readBase58ByPositions t ≠ .error (.trap trap)

/-- No text leads the readers of invoices and addresses into a trap, and signatures, payment
hashes and payees have the numbers of bytes that are expected of them. -/
theorem trapFree :
    (∀ t : Text, TrapFree t) ∧ ∀ symbols : List Symbol,
      (symbols.length = Invoice.signatureLength → (bytesOfSymbols symbols).length = 65) ∧
      (symbols.length = Invoice.hashLength → (bytesOfSymbols symbols).length = 32) ∧
      (symbols.length = Invoice.payeeLength → (bytesOfSymbols symbols).length = 33) := by
  constructor
  · intro t
    have invoice := Invoice.readByPositions_eq t
    have base58 := Address.readBase58ByPositions_eq t
    exact {
      data := fun _ read valid => Word.isCutFrom_of_read? read (Word.le_length_of_checks valid)
      invoice
      invoiceTrap := fun trap => invoice ▸ lift_ne_trap _ trap
      amount := Amount.splitByPositions_eq t
      segwit := Address.readSegwit_ne_witnessLength t
      base58
      base58Trap := fun trap => base58 ▸ lift_ne_trap _ trap }
  · intro symbols
    refine ⟨?_, ?_, ?_⟩ <;> intro length <;> rw [length_bytesOfSymbols, length] <;> rfl

/-- An invoice in capitals with a `1` in its amount, a text whose second character is cut by the
second byte, and the symbols of a signature. -/
theorem trapFree_of_capitals :
    let d : InvoiceDraft := { hrp := ['l', 'n', 'b', 'c', '1', '1', 'm'] }
    ∃ t w part, d.write = .ok t ∧ Word.read? t.upper = some w ∧
      t.upper.findLast? '1' = some 7 ∧ t.upper.slice? 8 (t.upper.size - 6) = some part ∧
      part.mapM (fun c => Symbol.ofChar? c.toLower) = some w.data ∧
      Text.slice? 0 2 ['l', 'é'] = none ∧
      Invoice.readByPositions ['l', 'é'] = .error (.refused (.invoice .missingStart)) ∧
      (bytesOfSymbols (List.replicate 104 0#5)).length = 65 := by
  intro d
  have written : d.write.toOption.map (fun t =>
      ((Word.read? t.upper).map (·.checks .bech32), t.upper.findLast? '1')) =
        some (some true, some 7) := by
    decide +kernel
  obtain ⟨t, stated, same⟩ := Option.map_eq_some_iff.mp written
  obtain ⟨word, last⟩ := Prod.mk.inj same
  obtain ⟨w, read, valid⟩ := Option.map_eq_some_iff.mp word
  obtain ⟨free, lengths⟩ := trapFree
  obtain ⟨separator, part, last', -, cut, -, symbols⟩ := (free t.upper).data w read valid
  obtain rfl : 7 = separator := Option.some.inj (last.symm.trans last')
  have refused : Invoice.read ['l', 'é'] = .error (.invoice .missingStart) := by decide +kernel
  have stopped := (free ['l', 'é']).invoice
  rw [refused] at stopped
  exact ⟨t, w, part, toOption_eq_some_iff.mp stated, read, last, cut, symbols, by decide, stopped,
    (lengths _).1 (List.length_replicate ..)⟩

end PaymentTarget
