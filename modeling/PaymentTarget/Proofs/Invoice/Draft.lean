import PaymentTarget.Invoice.Draft
import PaymentTarget.Proofs.Invoice.Layout
import PaymentTarget.Text.Utf8

/-! # Drafts that are read back

A draft writes the text of a layout, so that reading it can be followed part by
part. Its own fields come before the raw ones: a raw field with the same tag
and a length that is read speaks last. Whether the text is an invoice depends
on what the draft says and never on the form in which it is written.
-/

namespace PaymentTarget

/-- The payload of the last of some tagged payloads with this tag, in either
    case, and a length that is read. -/
def lastTagged? (tag : Char) (isRead : Nat → Bool) (tagged : List (Char × List Symbol)) :
    Option (List Symbol) :=
  (tagged.filter fun raw => raw.1.toLower == tag && isRead raw.2.length).getLast?.map Prod.snd

/-- What is asked of a field when it is given by the character of its tag. -/
structure SoundTagged (raw : Char × List Symbol) : Prop where
  description : raw.1.toLower = 'd' → ∃ text, Text.ofUtf8? (bytesOfSymbols raw.2) = some text
  payee : raw.1.toLower = 'n' → raw.2.length = Invoice.payeeLength →
    ∃ key, NodeKey.ofBytes (bytesOfSymbols raw.2) = .ok key

namespace InvoiceDraft

/-- What a draft has to say for its text to be an invoice. -/
structure Readable (d : InvoiceDraft) : Prop where
  price : ∃ price, InvoiceHrp.read d.hrp.lower = .ok price
  recoveryId : d.recoveryId ≤ 3
  paymentHash : d.paymentHash ≠ none ∨
    ∃ raw ∈ d.rawFields, raw.1.toLower = 'p' ∧ raw.2.length = Invoice.hashLength
  payee : ∀ bytes, d.payee = some bytes → ∃ key, NodeKey.ofBytes bytes.toList = .ok key
  sound : ∀ raw ∈ d.rawFields, SoundTagged raw

end InvoiceDraft

section Tagged

variable {tag : Char} {isRead : Nat → Bool}

theorem lastTagged?_append (xs ys : List (Char × List Symbol)) :
    lastTagged? tag isRead (xs ++ ys) =
      (lastTagged? tag isRead ys).or (lastTagged? tag isRead xs) := by
  simp only [lastTagged?, List.filter_append, List.getLast?_append, Option.map_or]

theorem isSome_lastTagged? {tagged : List (Char × List Symbol)} :
    (lastTagged? tag isRead tagged).isSome ↔
      ∃ raw ∈ tagged, raw.1.toLower = tag ∧ isRead raw.2.length := by
  simp [lastTagged?]

variable {α : Type} {content : Option α} {payload : α → List Symbol} {c : Char}

theorem lastTagged?_other (other : c.toLower ≠ tag) :
    lastTagged? tag isRead (content.map fun a => (c, payload a)).toList = none := by
  cases content <;> simp [lastTagged?, other]

theorem lastTagged?_same (same : c.toLower = tag)
    (read : ∀ a, content = some a → isRead (payload a).length = true) :
    lastTagged? tag isRead (content.map fun a => (c, payload a)).toList = content.map payload := by
  cases content with
  | none => rfl
  | some a => simp [lastTagged?, same, read a rfl]

theorem forall_mem_toList {P : Char × List Symbol → Prop} :
    (∀ raw ∈ (content.map fun a => (c, payload a)).toList, P raw) ↔
      ∀ a, content = some a → P (c, payload a) := by
  cases content <;> simp

end Tagged

namespace SoundTagged

theorem of_other {c : Char} {payload : List Symbol} (notDescription : c.toLower ≠ 'd')
    (notPayee : c.toLower ≠ 'n') : SoundTagged (c, payload) :=
  ⟨fun tag => absurd tag notDescription, fun tag => absurd tag notPayee⟩

theorem of_description {c : Char} (isTag : c.toLower = 'd') (text : Text) :
    SoundTagged (c, symbolsOfBytes text.utf8) := by
  refine ⟨fun _ => ⟨text, ?_⟩, fun tag => absurd (isTag.symm.trans tag) (by simp)⟩
  rw [bytesOfSymbols_symbolsOfBytes, Text.ofUtf8?_utf8]

theorem payee_iff (bytes : Vector UInt8 33) :
    SoundTagged ('n', symbolsOfBytes bytes.toList) ↔
      ∃ key, NodeKey.ofBytes bytes.toList = .ok key := by
  have length : (symbolsOfBytes bytes.toList).length = Invoice.payeeLength := by
    rw [length_symbolsOfBytes, Vector.length_toList]
    rfl
  constructor
  · intro sound
    have key := sound.payee (by simp) length
    rwa [bytesOfSymbols_symbolsOfBytes] at key
  · intro key
    refine ⟨fun tag => absurd tag (by simp), fun _ _ => ?_⟩
    rwa [bytesOfSymbols_symbolsOfBytes]

end SoundTagged

/-- The field with the tag that the character stands for, and with the payload. -/
structure Spells (raw : Char × List Symbol) (f : Field) : Prop where
  tag : raw.1.toLower = f.tag.toChar
  payload : raw.2 = f.payload

theorem Spells.sound_iff {raw : Char × List Symbol} {f : Field} (spells : Spells raw f) :
    f.Sound ↔ SoundTagged raw := by
  have isDescription : raw.1.toLower = 'd' ↔ f.tag = Field.descriptionTag := by
    rw [spells.tag, ← Symbol.toChar_inj]
    rfl
  have isPayee : raw.1.toLower = 'n' ↔ f.tag = Field.payeeTag := by
    rw [spells.tag, ← Symbol.toChar_inj]
    rfl
  constructor
  · intro sound
    refine ⟨?_, ?_⟩
    · rw [isDescription, spells.payload]
      exact sound.description
    · rw [isPayee, spells.payload]
      exact sound.payee
  · intro sound
    have description := sound.description
    have payee := sound.payee
    rw [isDescription, spells.payload] at description
    rw [isPayee, spells.payload] at payee
    exact ⟨description, payee⟩

section Spelled

variable {tagged : List (Char × List Symbol)} {fields : List Field}

theorem forall_sound_iff (spelled : List.Forall₂ Spells tagged fields) :
    (∀ f ∈ fields, f.Sound) ↔ ∀ raw ∈ tagged, SoundTagged raw := by
  induction spelled with
  | nil => simp
  | cons first _ ih => rw [List.forall_mem_cons, List.forall_mem_cons, first.sound_iff, ih]

theorem lastPayload?_eq_lastTagged? (spelled : List.Forall₂ Spells tagged fields) (tag : Symbol)
    (isRead : Nat → Bool) :
    Field.lastPayload? tag isRead fields = lastTagged? tag.toChar isRead tagged := by
  have same : (fields.filter fun f => f.tag == tag && isRead f.payload.length).map Field.payload =
      (tagged.filter fun raw => raw.1.toLower == tag.toChar && isRead raw.2.length).map
        Prod.snd := by
    induction spelled with
    | nil => rfl
    | @cons raw f _ _ first _ ih =>
        have sameTag : (raw.1.toLower == tag.toChar) = (f.tag == tag) := by
          rw [Bool.eq_iff_iff, beq_iff_eq, beq_iff_eq, first.tag, Symbol.toChar_inj]
        rw [List.filter_cons, List.filter_cons, sameTag, first.payload]
        split
        · rw [List.map_cons, List.map_cons, ih, first.payload]
        · exact ih
  rw [Field.lastPayload?, lastTagged?, ← List.getLast?_map, same, List.getLast?_map]

end Spelled

namespace InvoiceDraft

theorem field_eq_ok {tag : Char} {payload : List Symbol} {f : Field}
    (made : field tag payload = .ok f) :
    Spells (tag, payload) f ∧ f.payload.length < Field.lengthBound := by
  unfold field at made
  split at made
  · cases made
  next short =>
    split at made
    next symbol known =>
      rw [← Except.ok.inj made]
      exact ⟨⟨Symbol.ofChar?_eq_some_iff.mp known, rfl⟩, Nat.not_le.mp short⟩
    · cases made

theorem spelled_of_mapM {tagged : List (Char × List Symbol)} {fields : List Field}
    (made : (tagged.mapM fun (tag, payload) => field tag payload) = .ok fields) :
    List.Forall₂ Spells tagged fields ∧ ∀ f ∈ fields, f.payload.length < Field.lengthBound := by
  rw [mapM_eq_ok_iff] at made
  induction made with
  | nil => exact ⟨.nil, List.forall_mem_nil _⟩
  | cons first _ ih =>
      obtain ⟨spells, short⟩ := field_eq_ok first
      exact ⟨.cons spells ih.1, List.forall_mem_cons.mpr ⟨short, ih.2⟩⟩

section Own

variable (d : InvoiceDraft)

theorem lastTagged?_hash :
    lastTagged? 'p' (· == Invoice.hashLength) d.taggedPayloads =
      (lastTagged? 'p' (· == Invoice.hashLength) d.rawFields).or
        (d.paymentHash.map fun hash => symbolsOfBytes hash.toList) := by
  have whole : ∀ hash, d.paymentHash = some hash →
      ((symbolsOfBytes hash.toList).length == Invoice.hashLength) = true := by
    intro hash _
    rw [length_symbolsOfBytes, Vector.length_toList]
    rfl
  simp only [taggedPayloads, lastTagged?_append]
  rw [lastTagged?_same (c := 'p') (by decide) whole, lastTagged?_other (c := 'd') (by decide),
    lastTagged?_other (c := 'x') (by decide), lastTagged?_other (c := 'n') (by decide)]
  simp only [Option.none_or]

theorem lastTagged?_description :
    lastTagged? 'd' (fun _ => true) d.taggedPayloads =
      (lastTagged? 'd' (fun _ => true) d.rawFields).or
        (d.description.map fun text => symbolsOfBytes text.utf8) := by
  simp only [taggedPayloads, lastTagged?_append]
  rw [lastTagged?_other (c := 'p') (by decide),
    lastTagged?_same (c := 'd') (by decide) fun _ _ => rfl,
    lastTagged?_other (c := 'x') (by decide), lastTagged?_other (c := 'n') (by decide)]
  simp only [Option.or_none, Option.none_or]

theorem lastTagged?_expiry (bounded : ∀ secs, d.expirySecs = some secs → secs < 2 ^ 60) :
    lastTagged? 'x' (fun n => 1 ≤ n && n ≤ Invoice.maxExpiryLength) d.taggedPayloads =
      (lastTagged? 'x' (fun n => 1 ≤ n && n ≤ Invoice.maxExpiryLength) d.rawFields).or
        (d.expirySecs.map fun secs => symbolsOfNumber secs (symbolWidth secs)) := by
  have read : ∀ secs, d.expirySecs = some secs →
      (1 ≤ (symbolsOfNumber secs (symbolWidth secs)).length &&
        (symbolsOfNumber secs (symbolWidth secs)).length ≤ Invoice.maxExpiryLength) = true := by
    intro secs stated
    have most : symbolWidth secs ≤ 12 := symbolWidth_le (by omega) (bounded secs stated)
    simp [length_symbolsOfNumber, one_le_symbolWidth, Invoice.maxExpiryLength, most]
  simp only [taggedPayloads, lastTagged?_append]
  rw [lastTagged?_other (c := 'p') (by decide), lastTagged?_other (c := 'd') (by decide),
    lastTagged?_same (c := 'x') (by decide) read, lastTagged?_other (c := 'n') (by decide)]
  simp only [Option.or_none, Option.none_or]

theorem lastTagged?_payee :
    lastTagged? 'n' (· == Invoice.payeeLength) d.taggedPayloads =
      (lastTagged? 'n' (· == Invoice.payeeLength) d.rawFields).or
        (d.payee.map fun bytes => symbolsOfBytes bytes.toList) := by
  have whole : ∀ bytes, d.payee = some bytes →
      ((symbolsOfBytes bytes.toList).length == Invoice.payeeLength) = true := by
    intro bytes _
    rw [length_symbolsOfBytes, Vector.length_toList]
    rfl
  simp only [taggedPayloads, lastTagged?_append]
  rw [lastTagged?_other (c := 'p') (by decide), lastTagged?_other (c := 'd') (by decide),
    lastTagged?_other (c := 'x') (by decide), lastTagged?_same (c := 'n') (by decide) whole]
  simp only [Option.or_none]

theorem forall_soundTagged_iff :
    (∀ raw ∈ d.taggedPayloads, SoundTagged raw) ↔
      (∀ bytes, d.payee = some bytes → ∃ key, NodeKey.ofBytes bytes.toList = .ok key) ∧
        ∀ raw ∈ d.rawFields, SoundTagged raw := by
  simp only [taggedPayloads, List.forall_mem_append, forall_mem_toList, SoundTagged.payee_iff]
  constructor
  · rintro ⟨⟨-, payee⟩, raw⟩
    exact ⟨payee, raw⟩
  · rintro ⟨payee, raw⟩
    refine ⟨⟨⟨⟨?_, ?_⟩, ?_⟩, payee⟩, raw⟩
    · intro hash _
      exact SoundTagged.of_other (by decide) (by decide)
    · intro text _
      exact SoundTagged.of_description (by simp) text
    · intro secs _
      exact SoundTagged.of_other (by decide) (by decide)

end Own

section Stated

variable {d : InvoiceDraft} {fields : List Field}

theorem stated_paymentHash (spelled : List.Forall₂ Spells d.taggedPayloads fields) :
    (Invoice.Details.stated fields).paymentHash =
      match lastTagged? 'p' (· == Invoice.hashLength) d.rawFields with
      | some payload => some (bytesOfSymbols payload)
      | none => d.paymentHash.map Vector.toList := by
  have last := lastPayload?_eq_lastTagged? spelled Field.hashTag (· == Invoice.hashLength)
  have letter : Field.hashTag.toChar = 'p' := rfl
  rw [letter, lastTagged?_hash] at last
  simp only [Invoice.Details.stated, last]
  cases lastTagged? 'p' (· == Invoice.hashLength) d.rawFields <;> cases d.paymentHash <;>
    simp [bytesOfSymbols_symbolsOfBytes]

theorem stated_description (spelled : List.Forall₂ Spells d.taggedPayloads fields) :
    (Invoice.Details.stated fields).description =
      match lastTagged? 'd' (fun _ => true) d.rawFields with
      | some payload => Text.ofUtf8? (bytesOfSymbols payload)
      | none => d.description := by
  have last := lastPayload?_eq_lastTagged? spelled Field.descriptionTag fun _ => true
  have letter : Field.descriptionTag.toChar = 'd' := rfl
  rw [letter, lastTagged?_description] at last
  simp only [Invoice.Details.stated, last]
  cases lastTagged? 'd' (fun _ => true) d.rawFields <;> cases d.description <;>
    simp [bytesOfSymbols_symbolsOfBytes, Text.ofUtf8?_utf8]

theorem stated_expirySecs (spelled : List.Forall₂ Spells d.taggedPayloads fields)
    (bounded : ∀ secs, d.expirySecs = some secs → secs < 2 ^ 60) :
    (Invoice.Details.stated fields).expirySecs.getD Invoice.defaultExpirySecs =
      match lastTagged? 'x' (fun n => 1 ≤ n && n ≤ Invoice.maxExpiryLength) d.rawFields with
      | some payload => Radix.value 32 (payload.map BitVec.toNat)
      | none => d.expirySecs.getD Invoice.defaultExpirySecs := by
  have last := lastPayload?_eq_lastTagged? spelled Field.expiryTag
    fun n => 1 ≤ n && n ≤ Invoice.maxExpiryLength
  have letter : Field.expiryTag.toChar = 'x' := rfl
  rw [letter, lastTagged?_expiry d bounded] at last
  simp only [Invoice.Details.stated, last]
  cases lastTagged? 'x' (fun n => 1 ≤ n && n ≤ Invoice.maxExpiryLength) d.rawFields <;>
    cases d.expirySecs <;>
    simp [value_symbolsOfNumber, Nat.mod_eq_of_lt (lt_pow_symbolWidth _)]

theorem stated_payee (spelled : List.Forall₂ Spells d.taggedPayloads fields) :
    (Invoice.Details.stated fields).payee =
      match lastTagged? 'n' (· == Invoice.payeeLength) d.rawFields with
      | some payload => (NodeKey.ofBytes (bytesOfSymbols payload)).toOption
      | none => d.payee.bind fun bytes => (NodeKey.ofBytes bytes.toList).toOption := by
  have last := lastPayload?_eq_lastTagged? spelled Field.payeeTag (· == Invoice.payeeLength)
  have letter : Field.payeeTag.toChar = 'n' := rfl
  rw [letter, lastTagged?_payee] at last
  simp only [Invoice.Details.stated, last]
  cases lastTagged? 'n' (· == Invoice.payeeLength) d.rawFields <;> cases d.payee <;>
    simp [bytesOfSymbols_symbolsOfBytes]

end Stated

/-- The layout that a draft gives to these fields. -/
def layout (d : InvoiceDraft) (fields : List Field) : Invoice.Layout where
  hrp := d.hrp.lower
  timestamp := symbolsOfNumber d.timestamp Invoice.timestampLength
  fields
  signature := d.signature

variable {d : InvoiceDraft} {fields : List Field} {t : Text}

theorem data_layout (bare : d.trailing = []) : (d.layout fields).data = d.data fields := by
  simp only [layout, Invoice.Layout.data, data, bare, List.append_nil]

theorem length_signature : d.signature.length = Invoice.signatureLength := by
  rw [signature, length_symbolsOfBytes, List.length_append, List.length_replicate,
    List.length_singleton]
  rfl

theorem exists_layout_of_write (written : d.write = .ok t) (bare : d.trailing = [])
    (short : t.size ≤ Text.maxSize) :
    ∃ fields, List.Forall₂ Spells d.taggedPayloads fields ∧ (d.layout fields).Writes t ∧
      (d.layout fields).Measured ∧ Hrp.fault? d.hrp.lower = none ∧
      d.timestamp < timestampBound := by
  unfold write at written
  split at written
  · cases written
  next sound =>
    split at written
    · cases written
    next early =>
      split at written
      · cases written
      next fields made =>
        have small := Hrp.fault?_lower sound
        obtain ⟨-, size, -⟩ := Hrp.fault?_eq_none_iff.mp small
        obtain ⟨spelled, payloads⟩ := spelled_of_mapM made
        have text : t = (d.layout fields).write := by
          rw [Invoice.Layout.write, data_layout bare]
          exact (Except.ok.inj written).symm
        have lowerCase : Text.lower t = t := by
          rw [text, Invoice.Layout.write, Word.lower_write]
          exact Text.lower_lower d.hrp
        refine ⟨fields, spelled, ⟨short, Text.isMixedCase_of_lower lowerCase, ?_⟩,
          ⟨size, length_symbolsOfNumber _ _, payloads, length_signature⟩, small,
          Nat.not_le.mp early⟩
        rw [lowerCase, text]

theorem recoveryId?_layout : (d.layout fields).recoveryId? = some d.recoveryId := by
  rw [Invoice.Layout.recoveryId?, layout, signature, bytesOfSymbols_symbolsOfBytes]
  rfl

theorem acceptable_iff_readable (spelled : List.Forall₂ Spells d.taggedPayloads fields) :
    (d.layout fields).Acceptable ↔ d.Readable := by
  have sound : (∀ f ∈ fields, f.Sound) ↔ _ :=
    (forall_sound_iff spelled).trans (forall_soundTagged_iff d)
  have hash : (∃ f ∈ fields, f.tag = Field.hashTag ∧ f.payload.length = Invoice.hashLength) ↔
      d.paymentHash ≠ none ∨
        ∃ raw ∈ d.rawFields, raw.1.toLower = 'p' ∧ raw.2.length = Invoice.hashLength := by
    have raw : (lastTagged? 'p' (· == Invoice.hashLength) d.rawFields).isSome ↔
        ∃ raw ∈ d.rawFields, raw.1.toLower = 'p' ∧ raw.2.length = Invoice.hashLength := by
      rw [isSome_lastTagged?]
      simp only [beq_iff_eq]
    rw [← Invoice.Details.exists_paymentHash_iff, stated_paymentHash spelled, ← raw]
    cases lastTagged? 'p' (· == Invoice.hashLength) d.rawFields <;> cases d.paymentHash <;> simp
  constructor
  · intro acceptable
    obtain ⟨payee, raw⟩ := sound.mp acceptable.sound
    obtain ⟨id, same, bound⟩ := acceptable.recoveryId
    rw [recoveryId?_layout] at same
    refine ⟨acceptable.price, ?_, hash.mp acceptable.paymentHash, payee, raw⟩
    rwa [Option.some.inj same]
  · intro readable
    exact ⟨readable.price, ⟨_, recoveryId?_layout, readable.recoveryId⟩,
      hash.mpr readable.paymentHash, sound.mpr ⟨readable.payee, readable.sound⟩⟩

end InvoiceDraft

end PaymentTarget
