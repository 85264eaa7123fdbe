import PaymentTarget.Invoice.Basic
import PaymentTarget.Proofs.Bech32.Number
import PaymentTarget.Proofs.Result

/-! # What the fields of an invoice state

Fields are read from left to right, and each detail is the one that the last
field for it states. `Details.stated` looks these fields up instead of reading
along; both agree on all fields whose content is sound, and reading stops at
the first field of which it is not.
-/

namespace PaymentTarget

/-- A failure of what an invoice says, not of the word that carries it. -/
def Failure.isContent : Failure → Bool
  | .unknownHrp _ | .nodeKey _ | .invoice _ | .amount _ _ => true
  | _ => false

namespace Field

/-- A description is UTF-8, and a payee of the usual length is a node key. -/
structure Sound (f : Field) : Prop where
  description : f.tag = descriptionTag →
    ∃ text, Text.ofUtf8? (bytesOfSymbols f.payload) = some text
  payee : f.tag = payeeTag → f.payload.length = Invoice.payeeLength →
    ∃ key, NodeKey.ofBytes (bytesOfSymbols f.payload) = .ok key

/-- The payload of the last field with this tag and a length that is read. -/
def lastPayload? (tag : Symbol) (isRead : Nat → Bool) (fields : List Field) :
    Option (List Symbol) :=
  (fields.filter fun f => f.tag == tag && isRead f.payload.length).getLast?.map Field.payload

theorem lastPayload?_concat (tag : Symbol) (isRead : Nat → Bool) (fields : List Field) (f : Field) :
    lastPayload? tag isRead (fields ++ [f]) =
      if f.tag = tag ∧ isRead f.payload.length then some f.payload
      else lastPayload? tag isRead fields := by
  by_cases counts : f.tag = tag ∧ isRead f.payload.length
  · simp [lastPayload?, List.filter_append, counts]
  · have skipped : (f.tag == tag && isRead f.payload.length) = false := by simpa using counts
    simp only [lastPayload?, List.filter_append, List.filter_singleton, skipped, if_neg counts,
      cond_false, List.append_nil]

theorem isSome_lastPayload? {tag : Symbol} {isRead : Nat → Bool} {fields : List Field} :
    (lastPayload? tag isRead fields).isSome ↔
      ∃ f ∈ fields, f.tag = tag ∧ isRead f.payload.length := by
  simp [lastPayload?]

theorem lastPayload?_eq_some_iff {tag : Symbol} {isRead : Nat → Bool} {fields : List Field}
    {payload : List Symbol} :
    lastPayload? tag isRead fields = some payload ↔
      ∃ before f after, fields = before ++ f :: after ∧
        (f.tag = tag ∧ isRead f.payload.length = true) ∧
        (∀ g ∈ after, ¬(g.tag = tag ∧ isRead g.payload.length = true)) ∧ f.payload = payload := by
  simp only [lastPayload?, Option.map_eq_some_iff, List.getLast?_eq_some_iff]
  constructor
  · rintro ⟨f, ⟨earlier, counted⟩, rfl⟩
    obtain ⟨front, back, rfl, -, last⟩ := List.filter_eq_append_iff.mp counted
    obtain ⟨skipped, after, rfl, -, counts, none⟩ := List.filter_eq_cons_iff.mp last
    refine ⟨front ++ skipped, f, after, by rw [List.append_assoc], by simpa using counts, ?_, rfl⟩
    simpa using List.filter_eq_nil_iff.mp none
  · rintro ⟨before, f, after, rfl, counts, none, rfl⟩
    have skipped : after.filter (fun g => g.tag == tag && isRead g.payload.length) = [] := by
      rw [List.filter_eq_nil_iff]
      simpa using none
    refine ⟨f, ⟨before.filter fun g => g.tag == tag && isRead g.payload.length, ?_⟩, rfl⟩
    rw [List.filter_append, List.filter_cons_of_pos (by simpa using counts), skipped]

theorem symbolsOfNumber_digits (high low : Symbol) :
    symbolsOfNumber (32 * high.toNat + low.toNat) 2 = [high, low] := by
  simpa [Radix.value] using symbolsOfNumber_value [high, low]

theorem eq_symbols_of_split {symbols : List Symbol} {fields : List Field}
    (read : split symbols = (fields, none)) :
    symbols = fields.flatMap Field.symbols ∧ ∀ f ∈ fields, f.payload.length < lengthBound := by
  induction symbols using split.induct generalizing fields with
  | case1 =>
      rw [split] at read
      obtain ⟨rfl, -⟩ := Prod.mk.inj read
      simp
  | case2 tag high low rest length =>
      rename_i short
      rw [split, if_pos short] at read
      cases (Prod.mk.inj read).2
  | case3 tag high low rest length =>
      rename_i long found fault later ih
      rw [split, if_neg long, later] at read
      obtain ⟨rfl, rfl⟩ := Prod.mk.inj read
      obtain ⟨tiles, short⟩ := ih later
      have highBound := high.isLt
      have lowBound := low.isLt
      have size : (rest.take (32 * high.toNat + low.toNat)).length =
          32 * high.toNat + low.toNat := by
        rw [List.length_take]
        omega
      refine ⟨?_, List.forall_mem_cons.mpr ⟨?_, short⟩⟩
      · rw [List.flatMap_cons, ← tiles]
        simp only [symbols, size, symbolsOfNumber_digits, List.cons_append, List.nil_append,
          List.take_append_drop, length]
      · rw [size, lengthBound]
        omega
  | case4 symbols nonempty short =>
      rw [split] at read
      · cases (Prod.mk.inj read).2
      · exact nonempty
      · exact short

theorem split_flatMap_append (fields : List Field) (rest : List Symbol)
    (short : ∀ f ∈ fields, f.payload.length < lengthBound) :
    split (fields.flatMap Field.symbols ++ rest) = (fields ++ (split rest).1, (split rest).2) := by
  induction fields with
  | nil => rfl
  | cons f fields ih =>
      obtain ⟨first, later⟩ := List.forall_mem_cons.mp short
      simp only [List.flatMap_cons, List.append_assoc, split_symbols_append f _ first, ih later,
        List.cons_append]

theorem split_eq_iff {symbols : List Symbol} {fields : List Field} :
    split symbols = (fields, none) ↔
      symbols = fields.flatMap Field.symbols ∧ ∀ f ∈ fields, f.payload.length < lengthBound := by
  constructor
  · exact eq_symbols_of_split
  · rintro ⟨rfl, short⟩
    exact split_flatMap_symbols fields short

/-- One or two symbols are too few for a field, so that none is read behind others from them. -/
theorem eq_nil_of_flatMap_append {fields others : List Field} {rest : List Symbol}
    (short : ∀ f ∈ fields, f.payload.length < lengthBound)
    (short' : ∀ f ∈ others, f.payload.length < lengthBound)
    (same : others.flatMap Field.symbols = fields.flatMap Field.symbols ++ rest)
    (few : rest.length < 3) : rest = [] := by
  have whole := split_flatMap_symbols others short'
  rw [same, split_flatMap_append fields rest short, Prod.mk.injEq] at whole
  have tiles : split rest = ((split rest).1, none) := Prod.ext rfl whole.2
  obtain ⟨written, -⟩ := split_eq_iff.mp tiles
  cases read : (split rest).1 with
  | nil => rw [written, read, List.flatMap_nil]
  | cons f later =>
      have length := congrArg List.length written
      simp only [read, List.flatMap_cons, List.length_append, symbols, symbolsOfNumber_two,
        List.length_cons] at length
      omega

end Field

theorem NodeKey.isContent_of_ofBytes {bytes : List UInt8} {failure : Failure}
    (refused : NodeKey.ofBytes bytes = .error failure) : failure.isContent = true := by
  unfold NodeKey.ofBytes at refused
  split at refused
  · cases refused
    rfl
  · split at refused
    · cases refused
    · cases refused
      rfl

namespace Invoice.Details

/-- The details that the last fields for them state. -/
def stated (fields : List Field) : Details where
  paymentHash := (Field.lastPayload? Field.hashTag (· == hashLength) fields).map bytesOfSymbols
  description := (Field.lastPayload? Field.descriptionTag (fun _ => true) fields).bind fun payload =>
    Text.ofUtf8? (bytesOfSymbols payload)
  expirySecs :=
    (Field.lastPayload? Field.expiryTag (fun n => 1 ≤ n && n ≤ maxExpiryLength) fields).map
      fun payload => Radix.value 32 (payload.map BitVec.toNat)
  payee := (Field.lastPayload? Field.payeeTag (· == payeeLength) fields).bind fun payload =>
    (NodeKey.ofBytes (bytesOfSymbols payload)).toOption

theorem sound_of_add {d d' : Details} {f : Field} (added : d.add f = .ok d') : f.Sound := by
  constructor
  · intro tag
    simp only [add, tag, Field.hashTag, Field.descriptionTag, BitVec.reduceEq, false_and,
      if_false, if_true] at added
    split at added
    next text decoded => exact ⟨text, decoded⟩
    · cases added
  · intro tag length
    simp only [add, tag, length, Field.hashTag, Field.descriptionTag, Field.expiryTag,
      Field.payeeTag, BitVec.reduceEq, false_and, if_false, and_self, if_true] at added
    split at added
    next key made => exact ⟨key, made⟩
    · cases added

theorem add_stated (fields : List Field) {f : Field} (sound : f.Sound) :
    (stated fields).add f = .ok (stated (fields ++ [f])) := by
  have unlike : Field.hashTag ≠ Field.descriptionTag ∧ Field.hashTag ≠ Field.expiryTag ∧
      Field.hashTag ≠ Field.payeeTag ∧ Field.descriptionTag ≠ Field.expiryTag ∧
      Field.descriptionTag ≠ Field.payeeTag ∧ Field.expiryTag ≠ Field.payeeTag := by decide
  simp only [stated, Field.lastPayload?_concat]
  unfold add
  split
  next hash => simp [hash, unlike]
  next notHash =>
    split
    next tag =>
      obtain ⟨text, decoded⟩ := sound.description tag
      simp [tag, decoded, unlike, unlike.1.symm]
    next notDescription =>
      split
      next expiry =>
        obtain ⟨tag, least, most⟩ := expiry
        have number : numberOfSymbols f.payload = Radix.value 32 (f.payload.map BitVec.toNat) :=
          numberOfSymbols_eq_value most
        simp [tag, least, most, number, unlike, unlike.2.1.symm, unlike.2.2.2.1.symm]
      next notExpiry =>
        split
        next payee =>
          obtain ⟨key, made⟩ := sound.payee payee.1 payee.2
          simp [payee, made, Except.toOption, unlike.2.2.1.symm, unlike.2.2.2.2.1.symm,
            unlike.2.2.2.2.2.symm]
        next notPayee => simp [notHash, notDescription, notExpiry, notPayee]

theorem ofFields_concat (fields : List Field) (f : Field) :
    ofFields (fields ++ [f]) = ofFields fields >>= fun d => d.add f := by
  simp [ofFields]

theorem ofFields_eq_ok_iff {fields : List Field} {d : Details} :
    ofFields fields = .ok d ↔ (∀ f ∈ fields, f.Sound) ∧ d = stated fields := by
  -- The induction is from the right: the last field is the one that overrides the others.
  induction fields using List.reverseRecOn generalizing d with
  | nil =>
      have start : ofFields [] = .ok (stated []) := rfl
      simp [start, eq_comm]
  | append_singleton fields f ih =>
      rw [ofFields_concat, bind_eq_ok_iff]
      constructor
      · rintro ⟨before, read, added⟩
        obtain ⟨sound, rfl⟩ := ih.mp read
        have last := sound_of_add added
        rw [add_stated fields last, Except.ok.injEq] at added
        refine ⟨?_, added.symm⟩
        intro g member
        rcases List.mem_append.mp member with early | late
        · exact sound g early
        · rwa [List.mem_singleton.mp late]
      · rintro ⟨sound, rfl⟩
        have early : ∀ g ∈ fields, g.Sound :=
          fun g member => sound g (List.mem_append_left _ member)
        exact ⟨_, ih.mpr ⟨early, rfl⟩, add_stated fields (sound f (by simp))⟩

theorem isContent_of_add {d : Details} {f : Field} {failure : Failure}
    (refused : d.add f = .error failure) : failure.isContent = true := by
  unfold add at refused
  split at refused
  · cases refused
  · split at refused
    · split at refused
      · cases refused
      · cases refused
        rfl
    · split at refused
      · cases refused
      · split at refused
        · split at refused
          · cases refused
          next made =>
            rw [← Except.error.inj refused]
            exact NodeKey.isContent_of_ofBytes made
        · cases refused

theorem isContent_of_ofFields {fields : List Field} {failure : Failure}
    (refused : ofFields fields = .error failure) : failure.isContent = true := by
  induction fields using List.reverseRecOn with
  | nil => cases refused
  | append_singleton fields f ih =>
      rw [ofFields_concat, bind_eq_error_iff] at refused
      rcases refused with early | ⟨before, -, late⟩
      · exact ih early
      · exact isContent_of_add late

end Invoice.Details

end PaymentTarget
