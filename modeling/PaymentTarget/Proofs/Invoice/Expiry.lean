import PaymentTarget.Proofs.Invoice.Draft

/-! # Expiry times that are read back

A draft writes its expiry time in as many digits as the number needs, but of
more than twelve digits no expiry time is read. So a time comes back if it is
below 2 ^ 60. A longer one is written as a field that readers skip, and the
invoice lasts as long as one that says nothing. The other parts do not depend on
the expiry time, and a draft with fields of its own only is never too long.
-/

namespace PaymentTarget

theorem lastTagged?_unread {α : Type} {tag c : Char} {isRead : Nat → Bool} {content : Option α}
    {payload : α → List Symbol} (unread : ∀ a, content = some a → isRead (payload a).length = false) :
    lastTagged? tag isRead (content.map fun a => (c, payload a)).toList = none := by
  cases content with
  | none => rfl
  | some a => simp [lastTagged?, unread a rfl]

namespace InvoiceDraft

/-- The draft with this expiry time. -/
def withExpiry (d : InvoiceDraft) (secs : Nat) : InvoiceDraft :=
  { d with expirySecs := some secs }

variable {d : InvoiceDraft} {fields : List Field} {t : Text} {secs : Nat}

theorem write_eq_ok_iff :
    d.write = .ok t ↔ Hrp.fault? d.hrp = none ∧ d.timestamp < timestampBound ∧
      ∃ fields, (d.taggedPayloads.mapM fun (tag, payload) => field tag payload) = .ok fields ∧
        t = (Word.withChecksum .bech32 d.hrp.lower (d.data fields)).write := by
  unfold write
  split
  next fault found => simp [found]
  next sound =>
    split
    next late => simp [Nat.not_lt.mpr late]
    next early =>
      split
      next refused => simp [refused]
      next fields made => simp [sound, Nat.not_le.mp early, made, eq_comm]

theorem field_expiry (word : secs < wordBound) :
    ∃ f, field 'x' (symbolsOfNumber secs (symbolWidth secs)) = .ok f := by
  have bound : secs < 32 ^ 13 := word.trans (by decide)
  have width := symbolWidth_le (by decide) bound
  have short : ¬ Field.lengthBound ≤ symbolWidth secs := by
    rw [Field.lengthBound]
    omega
  have known : Symbol.ofChar? 'x' = some Field.expiryTag := by decide
  rw [field, length_symbolsOfNumber, if_neg short, known]
  exact ⟨_, rfl⟩

theorem exists_write_withExpiry (written : d.write = .ok t) (word : secs < wordBound) :
    ∃ t', (d.withExpiry secs).write = .ok t' := by
  obtain ⟨sound, early, fields, made, -⟩ := write_eq_ok_iff.mp written
  have each := exists_mapM_eq_ok_iff.mp ⟨fields, made⟩
  have every : ∀ raw ∈ (d.withExpiry secs).taggedPayloads, ∃ f, field raw.1 raw.2 = .ok f := by
    simp only [taggedPayloads, List.forall_mem_append] at each ⊢
    obtain ⟨⟨⟨⟨hash, description⟩, -⟩, payee⟩, raw⟩ := each
    refine ⟨⟨⟨⟨hash, description⟩, ?_⟩, payee⟩, raw⟩
    intro raw member
    obtain rfl := List.mem_singleton.mp member
    exact field_expiry word
  obtain ⟨fields', made'⟩ := exists_mapM_eq_ok_iff.mpr every
  exact ⟨_, write_eq_ok_iff.mpr ⟨sound, early, fields', made', rfl⟩⟩

theorem length_flatMap_symbols (short : ∀ f ∈ fields, f.payload.length < Field.lengthBound) :
    (fields.flatMap Field.symbols).length ≤ 1026 * fields.length := by
  induction fields with
  | nil => exact Nat.le_refl 0
  | cons f fields ih =>
      obtain ⟨first, later⟩ := List.forall_mem_cons.mp short
      have rest := ih later
      rw [Field.lengthBound] at first
      simp only [List.flatMap_cons, List.length_append, List.length_cons, Field.symbols,
        length_symbolsOfNumber] at rest ⊢
      omega

/-- What a draft writes without raw fields and trailing symbols is not too long to be read. -/
theorem size_le_of_write (written : d.write = .ok t) (own : d.rawFields = [])
    (bare : d.trailing = []) : t.size ≤ Text.maxSize := by
  obtain ⟨sound, -, fields, made, rfl⟩ := write_eq_ok_iff.mp written
  obtain ⟨spelled, short⟩ := spelled_of_mapM made
  obtain ⟨-, hrp, -⟩ := Hrp.fault?_eq_none_iff.mp sound
  have few : fields.length ≤ 4 := by
    have most (content : Option (Char × List Symbol)) : content.toList.length ≤ 1 := by
      cases content <;> simp
    have one := most (d.paymentHash.map fun hash => ('p', symbolsOfBytes hash.toList))
    have two := most (d.description.map fun text => ('d', symbolsOfBytes text.utf8))
    have three := most (d.expirySecs.map fun secs => ('x', symbolsOfNumber secs (symbolWidth secs)))
    have four := most (d.payee.map fun key => ('n', symbolsOfBytes key.toList))
    rw [← spelled.length_eq, taggedPayloads, own]
    simp only [List.length_append, List.length_nil]
    omega
  have regions := length_flatMap_symbols short
  have data : (d.data fields).length =
      Invoice.timestampLength + (fields.flatMap Field.symbols).length + Invoice.signatureLength := by
    simp only [InvoiceDraft.data, bare, List.append_nil, List.length_append, length_symbolsOfNumber,
      length_signature]
  rw [Word.size_write_withChecksum, Text.size_lower, data]
  rw [Hrp.maxSize] at hrp
  rw [Invoice.timestampLength, Invoice.signatureLength, checksumLength, Text.maxSize]
  omega

/-- More than twelve digits are skipped, so that no expiry time is stated. -/
theorem stated_expirySecs_of_long (spelled : List.Forall₂ Spells d.taggedPayloads fields)
    (own : d.rawFields = []) (stated : d.expirySecs = some secs) (long : 2 ^ 60 ≤ secs) :
    (Invoice.Details.stated fields).expirySecs = none := by
  have width : Invoice.maxExpiryLength < symbolWidth secs := by
    by_contra narrow
    have bound : 32 ^ symbolWidth secs ≤ 32 ^ Invoice.maxExpiryLength :=
      Nat.pow_le_pow_right (by decide) (Nat.not_lt.mp narrow)
    have number := lt_pow_symbolWidth secs
    rw [Invoice.maxExpiryLength] at bound
    omega
  have unread : ∀ secs, d.expirySecs = some secs →
      (1 ≤ (symbolsOfNumber secs (symbolWidth secs)).length &&
        (symbolsOfNumber secs (symbolWidth secs)).length ≤ Invoice.maxExpiryLength) = false := by
    intro other stated'
    obtain rfl : secs = other := Option.some.inj (stated.symm.trans stated')
    simp [length_symbolsOfNumber, width]
  have last := lastPayload?_eq_lastTagged? spelled Field.expiryTag
    fun n => 1 ≤ n && n ≤ Invoice.maxExpiryLength
  have letter : Field.expiryTag.toChar = 'x' := rfl
  rw [letter] at last
  simp only [taggedPayloads, own, List.append_nil, lastTagged?_append] at last
  rw [lastTagged?_other (c := 'p') (by decide), lastTagged?_other (c := 'd') (by decide),
    lastTagged?_unread (c := 'x') unread, lastTagged?_other (c := 'n') (by decide)] at last
  rw [Invoice.Details.stated, last]
  rfl

theorem stated_expirySecs_withExpiry
    (spelled : List.Forall₂ Spells (d.withExpiry secs).taggedPayloads fields)
    (own : d.rawFields = []) :
    (Invoice.Details.stated fields).expirySecs.getD Invoice.defaultExpirySecs =
      if secs < 2 ^ 60 then secs else Invoice.defaultExpirySecs := by
  split
  next short =>
    have bounded : ∀ s, (d.withExpiry secs).expirySecs = some s → s < 2 ^ 60 := by
      intro s stated
      rwa [← Option.some.inj stated]
    have none : (d.withExpiry secs).rawFields = [] := own
    rw [stated_expirySecs spelled bounded, none]
    rfl
  next long =>
    rw [stated_expirySecs_of_long spelled own rfl (Nat.not_lt.mp long)]
    rfl

/-- An expiry time below 2 ^ 60 is read back from the draft it was put in, and for a longer one
the default is read. The other parts of the invoice stay what they were. -/
theorem read_withExpiry {i : Invoice} (own : d.rawFields = []) (bare : d.trailing = [])
    (written : d.write = .ok t) (read : Invoice.read t = .ok i) (word : secs < wordBound) :
    ∃ t', (d.withExpiry secs).write = .ok t' ∧
      Invoice.read t' = .ok { i with
        expirySecs := if secs < 2 ^ 60 then secs else Invoice.defaultExpirySecs } := by
  obtain ⟨fields, spelled, writes, measured, sound, -⟩ :=
    exists_layout_of_write written bare (size_le_of_write written own bare)
  obtain ⟨acceptable, states⟩ := (Invoice.Layout.read_eq_ok_iff writes measured sound).mp read
  have readable := (acceptable_iff_readable spelled).mp acceptable
  obtain ⟨t', written'⟩ := exists_write_withExpiry written word
  obtain ⟨fields', spelled', writes', measured', sound', -⟩ :=
    exists_layout_of_write written' bare (size_le_of_write written' own bare)
  have readable' : (d.withExpiry secs).Readable :=
    ⟨readable.price, readable.recoveryId, readable.paymentHash, readable.payee, readable.sound⟩
  refine ⟨t', written', (Invoice.Layout.read_eq_ok_iff writes' measured' sound').mpr
    ⟨(acceptable_iff_readable spelled').mpr readable', states.price, states.timestamp, ?_, ?_, ?_, ?_⟩⟩
  · exact (stated_paymentHash spelled').trans
      ((stated_paymentHash spelled).symm.trans states.paymentHash)
  · exact states.description.trans
      ((stated_description spelled).trans (stated_description spelled').symm)
  · exact (stated_expirySecs_withExpiry spelled' own).symm
  · exact states.payee.trans ((stated_payee spelled).trans (stated_payee spelled').symm)

/-- What is read from the text of a draft, if that can be written and read. -/
def readBack? (d : InvoiceDraft) : Option Invoice :=
  d.write.toOption.bind fun t => (Invoice.read t).toOption

theorem readBack?_eq_some_iff {i : Invoice} :
    d.readBack? = some i ↔ ∃ t, d.write = .ok t ∧ Invoice.read t = .ok i := by
  simp only [readBack?, Option.bind_eq_some_iff, toOption_eq_some_iff]

/-- A draft with a payment hash only. -/
def plain : InvoiceDraft where
  hrp := ['l', 'n', 'b', 'c']
  paymentHash := some (Vector.replicate 32 7)

theorem read_plain : ∃ t i, plain.write = .ok t ∧ Invoice.read t = .ok i := by
  have stated : plain.readBack?.isSome = true := by decide +kernel
  obtain ⟨i, read⟩ := Option.isSome_iff_exists.mp stated
  obtain ⟨t, written, read⟩ := readBack?_eq_some_iff.mp read
  exact ⟨t, i, written, read⟩

/-- The last expiry time that comes back, and the last one there is, which does not. -/
theorem read_withExpiry_plain :
    ∃ t i t₁ t₂, plain.write = .ok t ∧ Invoice.read t = .ok i ∧
      (plain.withExpiry (2 ^ 60 - 1)).write = .ok t₁ ∧
      Invoice.read t₁ = .ok { i with expirySecs := 2 ^ 60 - 1 } ∧
      (plain.withExpiry (2 ^ 64 - 1)).write = .ok t₂ ∧
      Invoice.read t₂ = .ok { i with expirySecs := Invoice.defaultExpirySecs } := by
  obtain ⟨t, i, written, read⟩ := read_plain
  obtain ⟨t₁, written₁, read₁⟩ :=
    read_withExpiry rfl rfl written read (show 2 ^ 60 - 1 < wordBound by decide)
  obtain ⟨t₂, written₂, read₂⟩ :=
    read_withExpiry rfl rfl written read (show 2 ^ 64 - 1 < wordBound by decide)
  exact ⟨t, i, t₁, t₂, written, read, written₁, read₁, written₂, read₂⟩

/-- The first time with thirteen digits is lost, and the default is read for it. -/
theorem not_read_withExpiry :
    ¬ ∀ (d : InvoiceDraft) (t : Text) (i : Invoice) (secs : Nat),
      d.rawFields = [] → d.trailing = [] → d.write = .ok t → Invoice.read t = .ok i →
      secs < wordBound → ∃ t' i', (d.withExpiry secs).write = .ok t' ∧
        Invoice.read t' = .ok i' ∧ i'.expirySecs = secs := by
  intro kept
  obtain ⟨t, i, written, read⟩ := read_plain
  obtain ⟨t', i', written', read', same⟩ := kept plain t i (2 ^ 60) rfl rfl written read (by decide)
  have lost : ((plain.withExpiry (2 ^ 60)).readBack?.map Invoice.expirySecs) =
      some Invoice.defaultExpirySecs := by
    decide +kernel
  rw [readBack?_eq_some_iff.mpr ⟨t', written', read'⟩, Option.map_some, same] at lost
  exact absurd lost (by decide)

end InvoiceDraft

end PaymentTarget
