import PaymentTarget.Proofs.Invoice.Layout
import PaymentTarget.Proofs.Node.Point

/-! # The grammar of invoices

Which texts are invoices, and what they say, without the functions that read
them: fields tile the symbols between timestamp and signature, bytes stand in
the bits of the symbols, and six symbols behind all others complete them to the
residue 1. Of the fields that count for a detail the last one says it. The texts
of this grammar are the ones that are read, and what is read from them is what
their parts say.
-/

namespace PaymentTarget

namespace Field

/-- The fields fill the symbols: each is a tag, the length of its payload in two symbols, and the
    payload. -/
inductive Tile : List Symbol → List Field → Prop
  | nil : Tile [] []
  | cons {tag high low : Symbol} {payload rest : List Symbol} {fields : List Field} :
      32 * high.toNat + low.toNat = payload.length → Tile rest fields →
        Tile (tag :: high :: low :: payload ++ rest) (⟨tag, payload⟩ :: fields)

/-- The field has this letter for its tag and a payload of such a length. -/
def Counts (letter : Char) (length : Nat → Prop) (f : Field) : Prop :=
  f.tag.toChar = letter ∧ length f.payload.length

instance (letter : Char) (length : Nat → Prop) [DecidablePred length] (f : Field) :
    Decidable (f.Counts letter length) :=
  inferInstanceAs (Decidable (_ ∧ _))

/-- What the last field says that counts, if any of them counts. -/
inductive Last {α : Type} (counts : Field → Prop) (means : List Symbol → α → Prop)
    (fields : List Field) : Option α → Prop
  | none : (∀ f ∈ fields, ¬ counts f) → Last counts means fields none
  | some {before after : List Field} {f : Field} {a : α} :
      fields = before ++ f :: after → counts f → (∀ g ∈ after, ¬ counts g) → means f.payload a →
        Last counts means fields (some a)

theorem Tile.eq_flatMap {region : List Symbol} {fields : List Field} (tile : Tile region fields) :
    region = fields.flatMap Field.symbols ∧ ∀ f ∈ fields, f.payload.length < lengthBound := by
  induction tile with
  | nil => simp
  | @cons tag high low payload rest fields length tile ih =>
      obtain ⟨rfl, short⟩ := ih
      have highBound := high.isLt
      have lowBound := low.isLt
      refine ⟨?_, List.forall_mem_cons.mpr ⟨?_, short⟩⟩
      -- The two symbols of the length are the digits with which it is written.
      · rw [List.flatMap_cons, Field.symbols, ← length, symbolsOfNumber_digits]
        rfl
      · simp only [lengthBound]
        omega

theorem tile_flatMap {fields : List Field}
    (short : ∀ f ∈ fields, f.payload.length < lengthBound) :
    Tile (fields.flatMap Field.symbols) fields := by
  induction fields with
  | nil => exact .nil
  | cons f fields ih =>
      obtain ⟨first, later⟩ := List.forall_mem_cons.mp short
      rw [List.flatMap_cons, Field.symbols, symbolsOfNumber_two]
      exact .cons (toNat_two_digits first) (ih later)

section Last

variable {tag : Symbol} {isRead : Nat → Bool} {fields : List Field} {letter : Char}
  {length : Nat → Prop} {α : Type} {means : List Symbol → α → Prop} {read : List Symbol → Option α}

theorem counts_iff (letters : tag.toChar = letter) {f : Field} :
    f.Counts letter length ↔ f.tag = tag ∧ length f.payload.length := by
  rw [Counts, ← letters, Symbol.toChar_inj]

/-- The last field that counts is the one that is looked up, if all that count mean something. -/
theorem last_iff (letters : tag.toChar = letter) (lengths : ∀ n, length n ↔ isRead n = true)
    (reads : ∀ payload a, means payload a ↔ read payload = some a)
    (sound : ∀ f ∈ fields, f.Counts letter length → ∃ a, means f.payload a) {stated : Option α} :
    Last (Counts letter length) means fields stated ↔
      (lastPayload? tag isRead fields).bind read = stated := by
  have same {f : Field} : f.Counts letter length ↔
      f.tag = tag ∧ isRead f.payload.length = true := by
    rw [counts_iff letters, lengths]
  constructor
  · intro last
    cases last with
    | none uncounted =>
        have absent : lastPayload? tag isRead fields = none := by
          rw [← Option.not_isSome_iff_eq_none, isSome_lastPayload?]
          rintro ⟨f, member, counts⟩
          exact uncounted f member (same.mpr counts)
        rw [absent]
        rfl
    | @some before after f a whole counts later meant =>
        have found := lastPayload?_eq_some_iff.mpr
          ⟨before, f, after, whole, same.mp counts, fun g member => same.not.mp (later g member),
            rfl⟩
        rw [found, Option.bind_some, ← reads]
        exact meant
  · rintro rfl
    cases found : lastPayload? tag isRead fields with
    | none =>
        apply Last.none
        intro f member counts
        have present := isSome_lastPayload?.mpr ⟨f, member, same.mp counts⟩
        rw [found] at present
        cases present
    | some payload =>
        obtain ⟨before, f, after, rfl, counts, later, rfl⟩ := lastPayload?_eq_some_iff.mp found
        -- Without a meaning nothing would be looked up, although a field counts.
        obtain ⟨a, meant⟩ := sound f (by simp) (same.mpr counts)
        rw [Option.bind_some, (reads _ _).mp meant]
        exact .some rfl (same.mpr counts) (fun g member => same.not.mpr (later g member)) meant

end Last

end Field

section Content

variable {payload : List Symbol}

theorem carries_utf8_iff {text : Text} :
    Carries payload text.utf8 ↔ Text.ofUtf8? (bytesOfSymbols payload) = some text := by
  rw [carries_iff, Text.ofUtf8?_eq_some_iff]

theorem carries_key_iff {key : NodeKey} :
    Carries payload key.bytes ↔ NodeKey.ofBytes (bytesOfSymbols payload) = .ok key := by
  rw [carries_iff, NodeKey.ofBytes_eq_ok_iff, eq_comm]

theorem carries_point_iff :
    (∃ bytes, Carries payload bytes ∧ CompressedPoint bytes) ↔
      ∃ key : NodeKey, Carries payload key.bytes := by
  simp only [← NodeKey.exists_bytes_iff]
  constructor
  · rintro ⟨bytes, carried, key, rfl⟩
    exact ⟨key, carried⟩
  · rintro ⟨key, carried⟩
    exact ⟨key.bytes, carried, key, rfl⟩

end Content

theorem Field.sound_iff {f : Field} :
    f.Sound ↔
      (f.Counts 'd' (fun _ => True) → ∃ text : Text, Carries f.payload text.utf8) ∧
        (f.Counts 'n' (· = 53) → ∃ bytes, Carries f.payload bytes ∧ CompressedPoint bytes) := by
  have description : f.Counts 'd' (fun _ => True) ↔ f.tag = descriptionTag ∧ True :=
    counts_iff (show descriptionTag.toChar = 'd' from rfl)
  have payee : f.Counts 'n' (· = 53) ↔ f.tag = payeeTag ∧ f.payload.length = 53 :=
    counts_iff (show payeeTag.toChar = 'n' from rfl)
  simp only [description, payee, and_true, carries_point_iff, carries_utf8_iff, carries_key_iff]
  constructor
  · intro sound
    exact ⟨sound.description, fun counts => sound.payee counts.1 counts.2⟩
  · rintro ⟨description, payee⟩
    exact ⟨description, fun tag length => payee ⟨tag, length⟩⟩

/-- The symbols that the characters of a text stand for. -/
def Symbol.ofText (t : Text) : List Symbol :=
  t.filterMap Symbol.ofChar?

namespace Invoice

namespace Layout

/-- All symbols of an invoice with these parts: seven, the fields, and a hundred and four, behind
    which six more complete everything to the residue 1. -/
inductive Encodes (l : Layout) : List Symbol → Prop
  | intro {region checksum : List Symbol} :
      l.timestamp.length = 7 → Field.Tile region l.fields → l.signature.length = 104 →
        checksum.length = 6 →
        Residue.ofSymbols (Hrp.expand l.hrp ++ (l.timestamp ++ region ++ l.signature) ++ checksum) =
          1#30 →
        Encodes l (l.timestamp ++ region ++ l.signature ++ checksum)

/-- The text has the form of an invoice with these parts, in small letters or in capitals. -/
structure Spells (l : Layout) (t : Text) : Prop where
  size : t.utf8.length ≤ 8192
  hrp : l.hrp.utf8.length ≤ 83
  spelled : ∃ symbols, l.Encodes symbols ∧
    (t = l.hrp ++ '1' :: symbols.map Symbol.toChar ∨
      t = (l.hrp ++ '1' :: symbols.map Symbol.toChar).map Char.toUpper)

/-- The invoice says what the parts say: a detail is the one of the last field for it, and an expiry
    time that no field states is one hour. -/
structure Tells (l : Layout) (i : Invoice) : Prop where
  price : InvoiceHrp.read l.hrp = .ok (i.network, i.amountMsat)
  timestamp : i.timestamp = Radix.value 32 (l.timestamp.map BitVec.toNat)
  paymentHash : Field.Last (Field.Counts 'p' (· = 52)) Carries l.fields (some i.paymentHash)
  description : Field.Last (Field.Counts 'd' fun _ => True)
    (fun payload text => Carries payload text.utf8) l.fields i.description
  expirySecs : ∃ stated, Field.Last (Field.Counts 'x' fun n => 1 ≤ n ∧ n ≤ 12)
    (fun payload secs => secs = Radix.value 32 (payload.map BitVec.toNat)) l.fields stated ∧
      i.expirySecs = stated.getD 3600
  payee : Field.Last (Field.Counts 'n' (· = 53)) (fun payload key => Carries payload key.bytes)
    l.fields i.payee

theorem Encodes.eq_withChecksum {l : Layout} {symbols : List Symbol}
    (encodes : l.Encodes symbols) :
    symbols = (Word.withChecksum .bech32 l.hrp l.data).symbols ∧
      l.timestamp.length = timestampLength ∧
      (∀ f ∈ l.fields, f.payload.length < Field.lengthBound) ∧
      l.signature.length = signatureLength := by
  obtain ⟨timestamp, tile, signature, six, residue⟩ := encodes
  obtain ⟨rfl, short⟩ := tile.eq_flatMap
  refine ⟨?_, timestamp, short, signature⟩
  rw [(ChecksumVariant.residue_append_iff .bech32 _ six).mp residue]
  rfl

theorem Measured.encodes {l : Layout} (measured : l.Measured) :
    l.Encodes (Word.withChecksum .bech32 l.hrp l.data).symbols :=
  .intro measured.timestamp (Field.tile_flatMap measured.payloads) measured.signature rfl
    ((ChecksumVariant.residue_append_iff .bech32 (Hrp.expand l.hrp ++ l.data) rfl).mpr rfl)

/-- With a price in front, the form is the one that a layout writes. -/
theorem spells_iff {l : Layout} {t : Text} (price : ∃ price, InvoiceHrp.read l.hrp = .ok price) :
    l.Spells t ↔ l.Writes t ∧ l.Measured := by
  obtain ⟨price, read⟩ := price
  have small : l.write.lower = l.write :=
    Word.lower_write (InvoiceHrp.lower_of_read read)
  constructor
  · rintro ⟨size, hrp, symbols, encodes, spelled⟩
    obtain ⟨rfl, timestamp, payloads, signature⟩ := encodes.eq_withChecksum
    obtain ⟨singleCase, written⟩ := (Text.singleCase_iff small).mpr spelled
    rw [Text.length_utf8] at size hrp
    exact ⟨⟨size, singleCase, written⟩, hrp, timestamp, payloads, signature⟩
  · rintro ⟨writes, measured⟩
    refine ⟨?_, ?_, _, measured.encodes, ?_⟩
    · rw [Text.length_utf8]
      exact writes.short
    · rw [Text.length_utf8]
      exact measured.hrp
    · exact (Text.singleCase_iff small).mp ⟨writes.singleCase, writes.written⟩

section Details

variable {fields : List Field}

theorem payee_iff {stated : Option NodeKey}
    (sound : ∀ f ∈ fields, f.Counts 'n' (· = 53) → ∃ key : NodeKey, Carries f.payload key.bytes) :
    Field.Last (Field.Counts 'n' (· = 53)) (fun payload key => Carries payload key.bytes)
      fields stated ↔ (Details.stated fields).payee = stated := by
  simp only [Details.stated]
  apply Field.last_iff (rfl : Field.payeeTag.toChar = 'n')
  · simp [payeeLength]
  · intro payload key
    rw [carries_key_iff, toOption_eq_some_iff]
  · exact sound

end Details

end Layout

end Invoice

end PaymentTarget
