import PaymentTarget.Proofs.Bech32.Word
import PaymentTarget.Proofs.Bits
import PaymentTarget.Proofs.Invoice.Amount

/-! # How invoices are laid out

An invoice is put together from a human-readable part, a timestamp, fields, and
a signature, with a checksum behind them. The reader cuts a text from both ends
and reads fields in between; what it accepts is exactly the texts of well-formed
layouts, and the invoice it makes is the one that the layout states. No layout
has to be guessed: every layout of a text gives the same invoice.
-/

namespace PaymentTarget

namespace Invoice

/-- The parts of an invoice. -/
structure Layout where
  /-- The human-readable part, in small letters. -/
  hrp : Text
  /-- The symbols of the timestamp. -/
  timestamp : List Symbol
  /-- The fields in their order. -/
  fields : List Field
  /-- The symbols of the signature, the recovery id included. -/
  signature : List Symbol
  deriving Repr, DecidableEq

namespace Layout

/-- The symbols between the separator and the checksum. -/
def data (l : Layout) : List Symbol :=
  l.timestamp ++ l.fields.flatMap Field.symbols ++ l.signature

/-- The text in small letters. -/
def write (l : Layout) : Text :=
  (Word.withChecksum .bech32 l.hrp l.data).write

/-- A text of one letter case and no excessive size writes the layout. -/
structure Writes (l : Layout) (t : Text) : Prop where
  short : t.size ≤ Text.maxSize
  singleCase : t.isMixedCase = false
  written : t.lower = l.write

/-- Each part has a length by which it can be found. -/
structure Measured (l : Layout) : Prop where
  hrp : l.hrp.size ≤ Hrp.maxSize
  timestamp : l.timestamp.length = timestampLength
  payloads : ∀ f ∈ l.fields, f.payload.length < Field.lengthBound
  signature : l.signature.length = signatureLength

/-- The recovery id is the byte of a signature behind sixty-four others. -/
def recoveryId? (l : Layout) : Option UInt8 :=
  (bytesOfSymbols l.signature)[64]?

/-- What the parts must say: a price, a recovery id up to three, a payment hash,
    and nothing unsound in any field. -/
structure Acceptable (l : Layout) : Prop where
  price : ∃ price, InvoiceHrp.read l.hrp = .ok price
  recoveryId : ∃ id, l.recoveryId? = some id ∧ id ≤ 3
  paymentHash : ∃ f ∈ l.fields, f.tag = Field.hashTag ∧ f.payload.length = hashLength
  sound : ∀ f ∈ l.fields, f.Sound

/-- What an invoice is made of whose parts are these. -/
structure States (l : Layout) (i : Invoice) : Prop where
  price : InvoiceHrp.read l.hrp = .ok (i.network, i.amountMsat)
  timestamp : i.timestamp = Radix.value 32 (l.timestamp.map BitVec.toNat)
  paymentHash : (Details.stated l.fields).paymentHash = some i.paymentHash
  description : i.description = (Details.stated l.fields).description
  expirySecs : i.expirySecs = (Details.stated l.fields).expirySecs.getD defaultExpirySecs
  payee : i.payee = (Details.stated l.fields).payee

end Layout

theorem Details.exists_split_of_ofSymbols {symbols : List Symbol} {d : Details}
    (stated : Details.ofSymbols symbols = .ok d) :
    ∃ fields, Field.split symbols = (fields, none) := by
  unfold Details.ofSymbols at stated
  simp only at stated
  split at stated
  · cases stated
  · split at stated
    · cases stated
    next whole => exact ⟨_, Prod.ext rfl whole⟩

theorem Details.exists_paymentHash_iff {fields : List Field} :
    (∃ paymentHash, (stated fields).paymentHash = some paymentHash) ↔
      ∃ f ∈ fields, f.tag = Field.hashTag ∧ f.payload.length = hashLength := by
  rw [← Option.isSome_iff_exists, stated, Option.isSome_map, Field.isSome_lastPayload?]
  simp only [beq_iff_eq]

theorem hasRecoveryId_iff {signature : List Symbol}
    (measured : signature.length = signatureLength) :
    hasRecoveryId signature = true ↔ ∃ id, (bytesOfSymbols signature)[64]? = some id ∧ id ≤ 3 := by
  have last : (bytesOfSymbols signature).getLast? = (bytesOfSymbols signature)[64]? := by
    rw [List.getLast?_eq_getElem?, length_bytesOfSymbols, measured]
    rfl
  rw [hasRecoveryId, last]
  cases (bytesOfSymbols signature)[64]? <;> simp

namespace Layout

/-- The reader finds the parts of a layout again. -/
theorem ofData_data {l : Layout} (measured : l.Measured) (network : Network)
    (amountMsat : Option Nat) :
    ofData network amountMsat l.data =
      if !hasRecoveryId l.signature then .error (.invoice .recoveryId)
      else
        match Details.ofFields l.fields with
        | .error failure => .error failure
        | .ok details =>
            match details.paymentHash with
            | none => .error (.invoice .missingPaymentHash)
            | some paymentHash =>
                .ok {
                  network
                  amountMsat
                  timestamp := Radix.value 32 (l.timestamp.map BitVec.toNat)
                  paymentHash
                  description := details.description
                  expirySecs := details.expirySecs.getD defaultExpirySecs
                  payee := details.payee } := by
  have total : l.data.length =
      timestampLength + (l.fields.flatMap Field.symbols).length + signatureLength := by
    rw [data, List.length_append, List.length_append, measured.timestamp, measured.signature]
  have between : l.data.length - timestampLength - signatureLength =
      (l.fields.flatMap Field.symbols).length := by
    omega
  have timestamp : l.data.take timestampLength = l.timestamp := by
    rw [data, List.append_assoc, List.take_left' measured.timestamp]
  have behind : l.data.drop timestampLength = l.fields.flatMap Field.symbols ++ l.signature := by
    rw [data, List.append_assoc, List.drop_left' measured.timestamp]
  have number : numberOfSymbols l.timestamp = Radix.value 32 (l.timestamp.map BitVec.toNat) :=
    numberOfSymbols_eq_value (by rw [measured.timestamp]; decide)
  have cut := Field.split_flatMap_symbols l.fields measured.payloads
  rw [ofData]
  simp only [between, timestamp, number, ← List.drop_drop, behind, List.take_left, List.drop_left,
    Details.ofSymbols, cut]
  rw [if_neg (by omega)]
  cases Details.ofFields l.fields <;> rfl

/-- Symbols that are read have the parts of a layout. -/
theorem exists_of_ofData {network : Network} {amountMsat : Option Nat} {symbols : List Symbol}
    {i : Invoice} (read : ofData network amountMsat symbols = .ok i) {hrp : Text}
    (short : hrp.size ≤ Hrp.maxSize) :
    ∃ l : Layout, l.hrp = hrp ∧ l.data = symbols ∧ l.Measured := by
  unfold ofData at read
  simp only at read
  split at read
  · cases read
  next long =>
    split at read
    · cases read
    · split at read
      · cases read
      next details stated =>
        obtain ⟨fields, cut⟩ := Details.exists_split_of_ofSymbols stated
        obtain ⟨tiles, payloads⟩ := Field.split_eq_iff.mp cut
        let between := symbols.length - timestampLength - signatureLength
        refine ⟨{
          hrp
          timestamp := symbols.take timestampLength
          fields
          signature := symbols.drop (timestampLength + between) }, rfl, ?_, short, ?_, payloads, ?_⟩
        · simp only [data]
          rw [← tiles, ← List.drop_drop, List.append_assoc, List.take_append_drop,
            List.take_append_drop]
        · rw [List.length_take]
          omega
        · rw [List.length_drop]
          omega

theorem ofWord_eq_ok_iff {l : Layout} (measured : l.Measured) {i : Invoice} :
    ofWord (Word.withChecksum .bech32 l.hrp l.data) = .ok i ↔ l.Acceptable ∧ l.States i := by
  have same : (Word.withChecksum .bech32 l.hrp l.data).hrp = l.hrp := rfl
  have recoveryId := hasRecoveryId_iff measured.signature
  rw [ofWord, Word.data_withChecksum, same]
  constructor
  · intro read
    split at read
    · cases read
    next network amountMsat price =>
      rw [ofData_data measured] at read
      split at read
      · cases read
      next known =>
        rw [Bool.not_eq_true', Bool.not_eq_false] at known
        split at read
        · cases read
        next details stated =>
          obtain ⟨sound, rfl⟩ := Details.ofFields_eq_ok_iff.mp stated
          split at read
          · cases read
          next paymentHash hash =>
            rw [← Except.ok.inj read]
            have present := Details.exists_paymentHash_iff.mp ⟨paymentHash, hash⟩
            exact ⟨⟨⟨_, price⟩, recoveryId.mp known, present, sound⟩,
              price, rfl, hash, rfl, rfl, rfl⟩
  · rintro ⟨acceptable, states⟩
    rw [states.price]
    simp only
    rw [ofData_data measured, recoveryId.mpr acceptable.recoveryId]
    have content := Details.ofFields_eq_ok_iff.mpr ⟨acceptable.sound, rfl⟩
    simp only [content, states.paymentHash, Bool.not_true, Bool.false_eq_true, if_false]
    rw [← states.timestamp, ← states.description, ← states.expirySecs, ← states.payee]

end Layout

theorem isContent_of_ofSymbols {symbols : List Symbol} {failure : Failure}
    (refused : Details.ofSymbols symbols = .error failure) : failure.isContent = true := by
  unfold Details.ofSymbols at refused
  simp only at refused
  split at refused
  next content =>
    rw [← Except.error.inj refused]
    exact Details.isContent_of_ofFields content
  · split at refused
    · cases refused
      rfl
    · cases refused

theorem isContent_of_ofData {network : Network} {amountMsat : Option Nat} {symbols : List Symbol}
    {failure : Failure} (refused : ofData network amountMsat symbols = .error failure) :
    failure.isContent = true := by
  unfold ofData at refused
  simp only at refused
  split at refused
  · cases refused
    rfl
  · split at refused
    · cases refused
      rfl
    · split at refused
      next content =>
        rw [← Except.error.inj refused]
        exact isContent_of_ofSymbols content
      · split at refused
        · cases refused
          rfl
        · cases refused

theorem isContent_of_ofWord {w : Word} {failure : Failure}
    (refused : ofWord w = .error failure) : failure.isContent = true := by
  unfold ofWord at refused
  split at refused
  next unpriced =>
    rw [← Except.error.inj refused]
    exact InvoiceHrp.isContent_of_read unpriced
  · exact isContent_of_ofData refused

/-- Of a valid word only the content can be refused. -/
theorem isContent_of_read {t : Text} {w : Word} (word : Word.read? t = some w)
    (short : t.size ≤ Text.maxSize) (valid : w.checks .bech32 = true) (nonempty : t ≠ [])
    {failure : Failure} (refused : Invoice.read t = .error failure) :
    failure.isContent = true := by
  rw [Invoice.read, if_neg (List.isEmpty_iff.not.mpr nonempty)] at refused
  split at refused
  · cases refused
    rfl
  · simp only [word, Nat.not_lt.mpr short, valid, decide_false, Bool.not_true, Bool.or_self,
      Bool.false_eq_true, if_false] at refused
    exact isContent_of_ofWord refused

theorem start_of_readHrp {hrp : Text} {price : Network × Option Nat}
    (read : InvoiceHrp.read hrp = .ok price) (rest : Text) :
    (hrp ++ rest).take 2 = InvoiceHrp.start := by
  obtain ⟨amount, rfl, -⟩ := InvoiceHrp.read_eq_ok read
  rfl

/-- An invoice is read from a short word with a valid checksum, and from no other text. -/
theorem read_eq_ok_iff {t : Text} {i : Invoice} :
    Invoice.read t = .ok i ↔
      ∃ w, Word.read? t = some w ∧ t.size ≤ Text.maxSize ∧ w.checks .bech32 = true ∧
        ofWord w = .ok i := by
  constructor
  · intro read
    unfold Invoice.read at read
    split at read
    · cases read
    · split at read
      · cases read
      · split at read
        · cases read
        next w word =>
          split at read
          · cases read
          next checked =>
            simp only [Bool.or_eq_true, decide_eq_true_eq, Bool.not_eq_true', not_or, not_lt,
              Bool.not_eq_false] at checked
            exact ⟨w, word, checked.1, checked.2, read⟩
  · rintro ⟨w, word, short, valid, carried⟩
    obtain ⟨-, -, written⟩ := Word.read?_eq_some_iff.mp word
    have opening : Text.lower (t.take 2) = InvoiceHrp.start := by
      unfold ofWord at carried
      split at carried
      · cases carried
      next price => rw [Text.lower_take, written, Word.write, start_of_readHrp price]
    have nonempty : ¬ t.isEmpty = true := by
      intro empty
      rw [List.isEmpty_iff.mp empty] at opening
      cases opening
    rw [Invoice.read, if_neg nonempty, if_neg (not_not.mpr opening), word]
    simp only [Nat.not_lt.mpr short, valid, carried, decide_false, Bool.not_true, Bool.or_self,
      Bool.false_eq_true, if_false]

namespace Layout

theorem word_of_writes {l : Layout} {t : Text} (writes : l.Writes t)
    (sound : Hrp.fault? l.hrp = none) :
    Word.read? t = some (Word.withChecksum .bech32 l.hrp l.data) :=
  Word.read?_eq_some_iff.mpr ⟨writes.singleCase, sound, writes.written⟩

/-- What is read from a text, in terms of any layout that the text writes. -/
theorem read_eq_ok_iff {l : Layout} {t : Text} (writes : l.Writes t) (measured : l.Measured)
    (sound : Hrp.fault? l.hrp = none) {i : Invoice} :
    Invoice.read t = .ok i ↔ l.Acceptable ∧ l.States i := by
  rw [Invoice.read_eq_ok_iff, ← ofWord_eq_ok_iff measured]
  constructor
  · rintro ⟨w, word, -, -, carried⟩
    rw [word_of_writes writes sound] at word
    rwa [Option.some.inj word]
  · intro carried
    exact ⟨_, word_of_writes writes sound, writes.short, Word.checks_withChecksum _ _ _, carried⟩

theorem isContent_of_read {l : Layout} {t : Text} (writes : l.Writes t)
    (sound : Hrp.fault? l.hrp = none) {failure : Failure}
    (refused : Invoice.read t = .error failure) : failure.isContent = true := by
  have nonempty : t ≠ [] := by
    rintro rfl
    have written := writes.written
    simp [Text.lower, write, Word.write] at written
  exact Invoice.isContent_of_read (word_of_writes writes sound) writes.short
    (Word.checks_withChecksum _ _ _) nonempty refused

theorem Acceptable.fault? {l : Layout} (acceptable : l.Acceptable) (measured : l.Measured) :
    Hrp.fault? l.hrp = none := by
  obtain ⟨price, read⟩ := acceptable.price
  exact InvoiceHrp.fault?_of_read read measured.hrp

theorem exists_of_ofWord {w : Word} {i : Invoice} (carried : ofWord w = .ok i)
    (short : w.hrp.size ≤ Hrp.maxSize) :
    ∃ l : Layout, l.hrp = w.hrp ∧ l.data = w.data ∧ l.Measured := by
  unfold ofWord at carried
  split at carried
  · cases carried
  · exact exists_of_ofData carried short

/-- Every text that is read has a layout. -/
theorem exists_of_read {t : Text} {i : Invoice} (read : Invoice.read t = .ok i) :
    ∃ l : Layout, l.Writes t ∧ l.Measured ∧ l.Acceptable := by
  obtain ⟨w, word, short, valid, carried⟩ := Invoice.read_eq_ok_iff.mp read
  obtain ⟨single, sound, written⟩ := Word.read?_eq_some_iff.mp word
  have whole := Word.checks_iff.mp valid
  obtain ⟨-, size, -⟩ := Hrp.fault?_eq_none_iff.mp sound
  obtain ⟨l, sameHrp, sameData, measured⟩ := exists_of_ofWord carried size
  rw [← sameHrp, ← sameData] at whole
  rw [whole] at written carried
  exact ⟨l, ⟨short, single, written⟩, measured, ((ofWord_eq_ok_iff measured).mp carried).1⟩

/-- No layout is that of another one and one or two symbols behind its data. -/
theorem Measured.eq_nil_of_data {l m : Layout} (measured : l.Measured) (measured' : m.Measured)
    {more : List Symbol} (data : m.data = l.data ++ more) (few : more.length < 3) : more = [] := by
  have lengths := congrArg List.length data
  simp only [Layout.data, List.append_assoc, List.length_append, measured.timestamp,
    measured'.timestamp, measured.signature, measured'.signature] at lengths data
  have between := (List.append_inj data (measured'.timestamp.trans measured.timestamp.symm)).2
  have tiles := congrArg (List.take (m.fields.flatMap Field.symbols).length) between
  have longer : (m.fields.flatMap Field.symbols).length =
      (l.fields.flatMap Field.symbols).length + more.length := by
    omega
  rw [List.take_left, longer, List.take_length_add_append] at tiles
  -- What the fields have more than before is taken from the signature.
  have taken : ((l.signature ++ more).take more.length).length = more.length := by
    rw [List.length_take, List.length_append]
    omega
  have nothing := Field.eq_nil_of_flatMap_append measured.payloads measured'.payloads tiles
    (by omega)
  rw [nothing] at taken
  exact List.eq_nil_of_length_eq_zero taken.symm

end Layout

end Invoice

end PaymentTarget
