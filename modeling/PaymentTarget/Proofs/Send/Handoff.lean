import PaymentTarget.Proofs.Text
import PaymentTarget.Send.Intent

/-! # Hand-offs survive the query

Whatever a payer enters, its encoded form holds neither of the characters by
which a query is taken apart. The two pairs are therefore found again, the
destination is decoded to what it was, and a decision made about it once more
is the decision that was handed off.
-/

namespace PaymentTarget

namespace Percent

theorem mem_encodeByte {b : UInt8} {c : Char} (member : c ∈ encodeByte b) :
    isKept c = true ∨ c = '%' := by
  have digits : ∀ n : Fin 16, isKept (Nat.digitChar n).toUpper = true := by decide
  have bound := b.toNat_lt
  unfold encodeByte at member
  simp only at member
  split at member
  next kept =>
    rw [List.mem_singleton.mp member]
    exact .inl kept
  next =>
    simp only [Hex.digits, Text.upper, List.map_cons, List.map_nil, List.mem_cons,
      List.not_mem_nil, or_false] at member
    rcases member with rfl | rfl | rfl
    · exact .inr rfl
    · exact .inl (digits ⟨b.toNat / 16, by omega⟩)
    · exact .inl (digits ⟨b.toNat % 16, by omega⟩)

theorem mem_encode {t : Text} {c : Char} (member : c ∈ encode t) : isKept c = true ∨ c = '%' := by
  obtain ⟨b, -, inside⟩ := List.mem_flatMap.mp member
  exact mem_encodeByte inside

theorem not_mem_encode {c : Char} (escaped : isKept c = false) (other : c ≠ '%') (t : Text) :
    c ∉ encode t := by
  intro member
  rcases mem_encode member with kept | sign
  · rw [escaped] at kept
    cases kept
  · exact other sign

end Percent

namespace PayableKind

theorem ofName?_name (k : PayableKind) : ofName? k.name = some k := by
  cases k <;> decide

theorem isKept_of_mem_name (k : PayableKind) : ∀ c ∈ k.name.toList, Percent.isKept c = true := by
  rw [← List.all_eq_true]
  cases k <;> rfl

end PayableKind

namespace HandoffField

theorem ofName?_name (field : HandoffField) : ofName? field.name = some field := by
  cases field <;> decide

theorem isKept_of_mem_name (field : HandoffField) :
    ∀ c ∈ field.name.toList, Percent.isKept c = true := by
  rw [← List.all_eq_true]
  cases field <;> rfl

theorem not_mem_name {c : Char} (reserved : Percent.isKept c = false) (field : HandoffField) :
    c ∉ field.name.toList := by
  intro member
  rw [field.isKept_of_mem_name c member] at reserved
  cases reserved

end HandoffField

namespace Handoff

theorem splitFirst?_pair (field : HandoffField) (value : Text) :
    (pair field value).splitFirst? '=' = some (field.name.toList, value) :=
  Text.splitFirst?_append (field.not_mem_name (by decide)) value

theorem count_pair {c : Char} (reserved : Percent.isKept c = false) (field : HandoffField)
    {value : Text} (absent : c ∉ value) :
    (pair field value).count c = if c = '=' then 1 else 0 := by
  rw [pair, List.count_append, List.count_eq_zero_of_not_mem (field.not_mem_name reserved),
    List.count_cons, List.count_eq_zero_of_not_mem absent]
  by_cases sign : c = '='
  · simp [sign]
  · simp [sign, Ne.symm sign]

theorem encode_plain {c : Char} (reserved : Percent.isKept c = false) (other : c ≠ '%')
    (h : Handoff) : c ∉ Percent.encode h.destination ∧ c ∉ h.kind.name.toList := by
  refine ⟨Percent.not_mem_encode reserved other _, ?_⟩
  intro member
  rw [h.kind.isKept_of_mem_name c member] at reserved
  cases reserved

theorem pairs_toQuery (h : Handoff) :
    pairs h.toQuery =
      [pair .destination (Percent.encode h.destination), pair .kind h.kind.name.toList] := by
  obtain ⟨destination, kind⟩ := h.encode_plain (c := '&') (by decide) (by decide)
  have first := count_pair (by decide) .destination destination
  have second := count_pair (by decide) .kind kind
  rw [pairs, toQuery, List.splitOn_append_cons_self_of_not_mem (List.count_eq_zero.mp first),
    List.splitOn_eq_singleton (List.count_eq_zero.mp second)]
  rfl

theorem add_destination {k : Known} (unknown : k.destination = none) (destination : Text) :
    k.add (pair .destination (Percent.encode destination)) =
      .ok { k with destination := some destination } := by
  simp only [Known.add, splitFirst?_pair, String.ofList_toList, HandoffField.ofName?_name, unknown,
    Option.isSome_none, Bool.false_eq_true, if_false, Percent.decode?_encode]

theorem add_kind {k : Known} (unknown : k.kind = none) (kind : PayableKind) :
    k.add (pair .kind kind.name.toList) = .ok { k with kind := some kind } := by
  simp only [Known.add, splitFirst?_pair, String.ofList_toList, HandoffField.ofName?_name, unknown,
    Option.isSome_none, Bool.false_eq_true, if_false, PayableKind.ofName?_name]

theorem ofQuery_toQuery (h : Handoff) : ofQuery h.toQuery = .ok h := by
  have known : (pairs h.toQuery).foldlM Known.add {} =
      .ok { destination := some h.destination, kind := some h.kind } := by
    rw [pairs_toQuery, List.foldlM_cons, add_destination rfl, bind_eq_ok_iff]
    refine ⟨_, rfl, ?_⟩
    rw [List.foldlM_cons, add_kind rfl]
    rfl
  rw [ofQuery, known]
  rfl

theorem mem_toQuery {h : Handoff} {c : Char} (member : c ∈ h.toQuery) :
    Percent.isKept c = true ∨ c ∈ ['%', '&', '='] := by
  have inPair {field : HandoffField} {value : Text} (inside : c ∈ pair field value)
      (plain : c ∈ value → Percent.isKept c = true ∨ c = '%') :
      Percent.isKept c = true ∨ c ∈ ['%', '&', '='] := by
    rcases List.mem_append.mp inside with name | rest
    · exact .inl (field.isKept_of_mem_name c name)
    · rcases List.mem_cons.mp rest with rfl | value
      · simp
      · rcases plain value with kept | rfl
        · exact .inl kept
        · simp
  rcases List.mem_append.mp member with first | rest
  · exact inPair first Percent.mem_encode
  · rcases List.mem_cons.mp rest with rfl | second
    · simp
    · exact inPair second fun value => .inl (h.kind.isKept_of_mem_name c value)

theorem count_toQuery {c : Char} (reserved : Percent.isKept c = false) (other : c ≠ '%')
    (h : Handoff) :
    h.toQuery.count c = (if c = '=' then 2 else 0) + if c = '&' then 1 else 0 := by
  obtain ⟨destination, kind⟩ := h.encode_plain reserved other
  rw [toQuery, List.count_append, List.count_cons, count_pair reserved _ destination,
    count_pair reserved _ kind]
  by_cases sign : c = '='
  · simp [sign]
  · by_cases ampersand : c = '&'
    · simp [ampersand]
    · simp [sign, ampersand, Ne.symm ampersand]

end Handoff

theorem Settings.decide_eq_proceed {s : Settings} {t destination : Text} {kind : PayableKind}
    (decided : s.decide t = .proceed destination kind) : destination = t := by
  unfold Settings.decide at decided
  split at decided
  · cases decided
  · split at decided
    · cases decided
      rfl
    · cases decided
      rfl
    · cases decided
    · cases decided

/-- Nothing is lost when a hand-off becomes a query, and what is decided about the destination
that is read from it stays what it was. -/
theorem handoff_lossless :
    (∀ h : Handoff,
      (∀ c ∈ h.toQuery, c.isAlphanum = true ∨ c ∈ ['-', '.', '_', '~', '%', '&', '=']) ∧
        h.toQuery.count '&' = 1 ∧ h.toQuery.count '=' = 2 ∧ Handoff.ofQuery h.toQuery = .ok h) ∧
      ∀ (s : Settings) (t destination : Text) (kind : PayableKind),
        s.decide t = .proceed destination kind →
          destination = t ∧ ∃ h h' : Handoff, (s.decide t).handoff? = some h ∧
            Handoff.ofQuery h.toQuery = .ok h' ∧ s.decide h'.destination = s.decide t := by
  refine ⟨?_, ?_⟩
  · intro h
    refine ⟨?_, Handoff.count_toQuery (by decide) (by decide) h,
      Handoff.count_toQuery (by decide) (by decide) h, Handoff.ofQuery_toQuery h⟩
    intro c member
    rcases Handoff.mem_toQuery member with kept | structural
    · simp only [Percent.isKept, Bool.or_eq_true, beq_iff_eq] at kept
      rcases kept with (((letter | rfl) | rfl) | rfl) | rfl
      · exact .inl letter
      all_goals exact .inr (by simp)
    · exact .inr (List.mem_append_right ['-', '.', '_', '~'] structural)
  · intro s t destination kind decided
    obtain rfl := Settings.decide_eq_proceed decided
    refine ⟨rfl, ⟨destination, kind⟩, ⟨destination, kind⟩, ?_, Handoff.ofQuery_toQuery _, rfl⟩
    rw [decided]
    rfl

theorem handoff_lossless_of_uri :
    let t := "bitcoin:bc1qw508d6qejxtdg4y5r3zarvary0c5xw7kv8f3t4?label=50%2 + é&\x00".toList
    ({} : Settings).decide t = .proceed t .onChainAddress ∧
      ∃ h h' : Handoff, (({} : Settings).decide t).handoff? = some h ∧
        Handoff.ofQuery h.toQuery = .ok h' ∧
        ({} : Settings).decide h'.destination = ({} : Settings).decide t := by
  intro t
  have decided : ({} : Settings).decide t = .proceed t .onChainAddress := by decide +kernel
  exact ⟨decided, (handoff_lossless.2 {} t t .onChainAddress decided).2⟩

end PaymentTarget
