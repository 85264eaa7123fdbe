import PaymentTarget.Proofs.Send.Handoff

/-! # Which queries are hand-offs

The pairs of a query are the pieces between its ampersands that are not empty.
Whether a pair offends depends on the pair and on those in front of it, and the
leftmost one that does is reported. Pairs of which none offends have stated
each field at most once: there are five shapes in which they can stand, and a
hand-off is read from the two of them that state both fields.
-/

namespace PaymentTarget

/-- The two texts that name a payable kind. -/
inductive PayableKind.Names : Text → PayableKind → Prop
  | onChainAddress : Names "on_chain_address".toList .onChainAddress
  | nodePublicKey : Names "node_public_key".toList .nodePublicKey

theorem PayableKind.ofName?_eq_some_iff {value : Text} {kind : PayableKind} :
    ofName? (String.ofList value) = some kind ↔ Names value kind := by
  constructor
  · intro found
    have same : kind.name = String.ofList value := by simpa using List.find?_some found
    obtain rfl : value = kind.name.toList := by rw [same, String.toList_ofList]
    cases kind with
    | onChainAddress => exact .onChainAddress
    | nodePublicKey => exact .nodePublicKey
  · intro names
    cases names <;> decide

theorem HandoffField.ofName?_eq_none_iff {name : Text} :
    ofName? (String.ofList name) = none ↔ ∀ field : HandoffField, name ≠ field.name.toList := by
  constructor
  · rintro unknown field rfl
    rw [String.ofList_toList, field.ofName?_name] at unknown
    cases unknown
  · intro different
    apply List.find?_eq_none.mpr
    intro field _ same
    apply different field
    rw [eq_of_beq same, String.toList_ofList]

namespace Handoff

/-- The query is made of pieces with ampersands between them, and these are the ones that are
not empty. -/
def HasPairs (query : Text) (items : List Text) : Prop :=
  ∃ pieces : List Text, (∀ piece ∈ pieces, '&' ∉ piece) ∧ query = ['&'].intercalate pieces ∧
    items = pieces.filter fun piece => !piece.isEmpty

/-- The value is none that the field can have. -/
inductive Unfit : HandoffField → Text → HandoffFault → Prop
  | encoding {value : Text} : Percent.decode? value = none →
      Unfit .destination value .invalidEncoding
  | kind {value : Text} : (∀ kind, ¬ PayableKind.Names value kind) →
      Unfit .kind value (.unknownKind value)

/-- What is wrong with a pair that stands behind these. -/
inductive Offends (before : List Text) : Text → HandoffFault → Prop
  | malformed {item : Text} : '=' ∉ item → Offends before item (.malformedPair item)
  | foreign {name value : Text} : '=' ∉ name →
      (∀ field : HandoffField, name ≠ field.name.toList) →
        Offends before (name ++ '=' :: value) (.unknownField name)
  /-- Whatever the second pair states, and be it unfit. -/
  | duplicate {field : HandoffField} {first value : Text} : pair field first ∈ before →
      Offends before (pair field value) (.duplicateField field)
  | unfit {field : HandoffField} {value : Text} {fault : HandoffFault} :
      (∀ first, pair field first ∉ before) → Unfit field value fault →
        Offends before (pair field value) fault

/-- None of the pairs offends. -/
def Sound (items : List Text) : Prop :=
  ∀ before item after fault, items = before ++ item :: after → ¬ Offends before item fault

/-- The leftmost pair that offends has this fault. -/
def FirstFault (items : List Text) (fault : HandoffFault) : Prop :=
  ∃ before item after, items = before ++ item :: after ∧ Sound before ∧ Offends before item fault

/-- No pair states this field; the destination is missed first. -/
inductive Missing (items : List Text) : HandoffFault → Prop
  | destination : (∀ value, pair .destination value ∉ items) →
      Missing items (.missingField .destination)
  | kind {value : Text} : pair .destination value ∈ items → (∀ value, pair .kind value ∉ items) →
      Missing items (.missingField .kind)

/-- The pairs state a destination and a kind, each once and in either order. -/
inductive Hands : List Text → Handoff → Prop
  | destinationFirst {v k : Text} {h : Handoff} : Percent.decode? v = some h.destination →
      PayableKind.Names k h.kind → Hands [pair .destination v, pair .kind k] h
  | kindFirst {v k : Text} {h : Handoff} : Percent.decode? v = some h.destination →
      PayableKind.Names k h.kind → Hands [pair .kind k, pair .destination v] h

/-- What pairs say of which none offends. -/
inductive Yields : List Text → Known → Prop
  | nothing : Yields [] {}
  | destination {v d : Text} : Percent.decode? v = some d →
      Yields [pair .destination v] { destination := some d }
  | kind {k : Text} {c : PayableKind} : PayableKind.Names k c →
      Yields [pair .kind k] { kind := some c }
  | both {items : List Text} {h : Handoff} : Hands items h →
      Yields items { destination := some h.destination, kind := some h.kind }

section Pieces

theorem not_mem_of_mem_splitOn {sep : Char} {t piece : Text} (member : piece ∈ t.splitOn sep) :
    sep ∉ piece := by
  induction t generalizing piece with
  | nil => simp_all
  | cons c rest ih =>
      rw [List.splitOn_cons_eq_if_modifyHead] at member
      split at member
      · rcases List.mem_cons.mp member with rfl | later
        · exact List.not_mem_nil
        · exact ih later
      next other =>
        cases split : rest.splitOn sep with
        | nil => exact absurd split (List.splitOn_ne_nil _ _)
        | cons first later =>
            rw [split] at ih member
            rcases List.mem_cons.mp member with rfl | inside
            · have absent := ih List.mem_cons_self
              simpa [absent] using fun same : sep = c => other (by simp [same])
            · exact ih (List.mem_cons_of_mem _ inside)

theorem hasPairs_pairs (query : Text) : HasPairs query (pairs query) :=
  ⟨query.splitOn '&', fun _ => not_mem_of_mem_splitOn, (List.intercalate_splitOn '&').symm,
    rfl⟩

theorem HasPairs.eq_pairs {query : Text} {items : List Text} (has : HasPairs query items) :
    items = pairs query := by
  obtain ⟨pieces, plain, rfl, rfl⟩ := has
  cases pieces with
  | nil => rfl
  | cons first rest => simp [pairs, List.splitOn_intercalate '&' plain]

end Pieces

section Step

variable {before : List Text} {item : Text} {k k' : Known} {fault : HandoffFault}

theorem pair_inj {f g : HandoffField} {v w : Text} : pair f v = pair g w ↔ f = g ∧ v = w := by
  constructor
  · intro same
    have cut := splitFirst?_pair f v
    rw [same, splitFirst?_pair, Option.some.injEq, Prod.mk.injEq] at cut
    refine ⟨?_, cut.2.symm⟩
    have found := f.ofName?_name
    rw [← String.toList_inj.mp cut.1, g.ofName?_name] at found
    exact (Option.some.inj found).symm
  · rintro ⟨rfl, rfl⟩
    rfl

/-- Whether the field has been stated. -/
def Known.has (k : Known) : HandoffField → Bool
  | .destination => k.destination.isSome
  | .kind => k.kind.isSome

theorem Yields.has_iff (yields : Yields before k) (field : HandoffField) :
    k.has field = true ↔ ∃ value, pair field value ∈ before := by
  cases yields with
  | nothing => cases field <;> simp [Known.has]
  | destination => cases field <;> simp [Known.has, pair_inj]
  | kind => cases field <;> simp [Known.has, pair_inj]
  | both hands => cases hands <;> cases field <;> simp [Known.has, pair_inj]

theorem Yields.has_eq_false_iff (yields : Yields before k) (field : HandoffField) :
    k.has field = false ↔ ∀ value, pair field value ∉ before := by
  rw [Bool.eq_false_iff, Ne, yields.has_iff, not_exists]

theorem add_malformed (k : Known) (unseparated : '=' ∉ item) :
    k.add item = .error (.malformedPair item) := by
  rw [Known.add, Text.splitFirst?_eq_none_iff.mpr unseparated]

theorem add_foreign (k : Known) {name : Text} (plain : '=' ∉ name)
    (different : ∀ field : HandoffField, name ≠ field.name.toList) (value : Text) :
    k.add (name ++ '=' :: value) = .error (.unknownField name) := by
  rw [Known.add, Text.splitFirst?_append plain]
  simp only [HandoffField.ofName?_eq_none_iff.mpr different]

theorem add_duplicate {field : HandoffField} (known : k.has field = true) (value : Text) :
    k.add (pair field value) = .error (.duplicateField field) := by
  cases field <;>
    simp only [Known.has] at known <;>
    simp only [Known.add, splitFirst?_pair, String.ofList_toList, HandoffField.ofName?_name, known,
      if_true]

/-- What becomes known from one more field. -/
inductive Learns (k : Known) : HandoffField → Text → Known → Prop
  | destination {v d : Text} : Percent.decode? v = some d →
      Learns k .destination v { k with destination := some d }
  | kind {v : Text} {c : PayableKind} : PayableKind.Names v c →
      Learns k .kind v { k with kind := some c }

theorem add_pair_eq_error_iff {field : HandoffField} {value : Text}
    (unknown : k.has field = false) :
    k.add (pair field value) = .error fault ↔ Unfit field value fault := by
  simp only [Known.add, splitFirst?_pair, String.ofList_toList, HandoffField.ofName?_name]
  cases field with
  | destination =>
      simp only [Known.has] at unknown
      simp only [unknown, Bool.false_eq_true, if_false]
      cases decoded : Percent.decode? value with
      | none =>
          constructor
          · rintro ⟨⟩
            exact .encoding decoded
          · rintro ⟨⟩
            rfl
      | some d =>
          constructor
          · rintro ⟨⟩
          · rintro ⟨undecoded⟩
            rw [decoded] at undecoded
            cases undecoded
  | kind =>
      simp only [Known.has] at unknown
      simp only [unknown, Bool.false_eq_true, if_false]
      cases named : PayableKind.ofName? (String.ofList value) with
      | none =>
          constructor
          · rintro ⟨⟩
            refine .kind ?_
            intro kind names
            rw [PayableKind.ofName?_eq_some_iff.mpr names] at named
            cases named
          · rintro ⟨⟩
            rfl
      | some c =>
          constructor
          · rintro ⟨⟩
          · rintro (_ | nameless)
            exact absurd (PayableKind.ofName?_eq_some_iff.mp named) (nameless c)

theorem add_pair_eq_ok_iff {field : HandoffField} {value : Text} (unknown : k.has field = false) :
    k.add (pair field value) = .ok k' ↔ Learns k field value k' := by
  simp only [Known.add, splitFirst?_pair, String.ofList_toList, HandoffField.ofName?_name]
  cases field with
  | destination =>
      simp only [Known.has] at unknown
      simp only [unknown, Bool.false_eq_true, if_false]
      constructor
      · intro added
        split at added
        · cases added
        next d decoded =>
          cases added
          exact .destination decoded
      · rintro ⟨decoded⟩
        simp only [decoded]
  | kind =>
      simp only [Known.has] at unknown
      simp only [unknown, Bool.false_eq_true, if_false]
      constructor
      · intro added
        split at added
        · cases added
        next c named =>
          cases added
          exact .kind (PayableKind.ofName?_eq_some_iff.mp named)
      · rintro (_ | names)
        simp only [PayableKind.ofName?_eq_some_iff.mpr names]

/-- The forms of a piece: no pair, a pair of another name, a pair that states a field. -/
inductive Form : Text → Prop
  | malformed {item : Text} : '=' ∉ item → Form item
  | foreign {name value : Text} : '=' ∉ name →
      (∀ field : HandoffField, name ≠ field.name.toList) → Form (name ++ '=' :: value)
  | field (field : HandoffField) (value : Text) : Form (pair field value)

theorem form (item : Text) : Form item := by
  cases cut : item.splitFirst? '=' with
  | none => exact .malformed (Text.splitFirst?_eq_none_iff.mp cut)
  | some parts =>
      obtain ⟨plain, rfl⟩ := Text.splitFirst?_eq_some_iff.mp cut
      by_cases named : ∃ field : HandoffField, parts.1 = field.name.toList
      · obtain ⟨field, same⟩ := named
        rw [same]
        exact .field field parts.2
      · exact .foreign plain (not_exists.mp named)

/-- One pair is refused just if it offends. -/
theorem add_eq_error_iff (yields : Yields before k) :
    k.add item = .error fault ↔ Offends before item fault := by
  constructor
  · intro refused
    cases form item with
    | malformed unseparated =>
        rw [add_malformed k unseparated] at refused
        cases refused
        exact .malformed unseparated
    | foreign plain different =>
        rw [add_foreign k plain different] at refused
        cases refused
        exact .foreign plain different
    | field field value =>
        cases known : k.has field with
        | true =>
            obtain ⟨first, member⟩ := (yields.has_iff field).mp known
            rw [add_duplicate known] at refused
            cases refused
            exact .duplicate member
        | false =>
            have absent := (yields.has_eq_false_iff field).mp known
            exact .unfit absent ((add_pair_eq_error_iff known).mp refused)
  · intro offends
    cases offends with
    | malformed unseparated => exact add_malformed k unseparated
    | foreign plain different => exact add_foreign k plain different _
    | @duplicate field first value member =>
        exact add_duplicate ((yields.has_iff field).mpr ⟨first, member⟩) value
    | unfit absent unfit =>
        exact (add_pair_eq_error_iff ((yields.has_eq_false_iff _).mpr absent)).mpr unfit

/-- A pair that is added brings the pairs into another of the shapes. -/
theorem Yields.concat (yields : Yields before k) (added : k.add item = .ok k') :
    Yields (before ++ [item]) k' := by
  cases form item with
  | malformed unseparated =>
      rw [add_malformed k unseparated] at added
      cases added
  | foreign plain different =>
      rw [add_foreign k plain different] at added
      cases added
  | field field value =>
      cases known : k.has field with
      | true =>
          rw [add_duplicate known] at added
          cases added
      | false =>
          cases (add_pair_eq_ok_iff known).mp added with
          | @destination _ d decoded =>
              cases yields with
              | nothing => exact .destination decoded
              | @kind _ c names => exact .both (h := ⟨d, c⟩) (.kindFirst decoded names)
              | destination | both => cases known
          | @kind _ c names =>
              cases yields with
              | nothing => exact .kind names
              | @destination _ d decoded =>
                  exact .both (h := ⟨d, c⟩) (.destinationFirst decoded names)
              | kind | both => cases known

end Step

section Run

variable {before items : List Text} {item : Text} {k : Known} {fault : HandoffFault}

theorem run_concat (before : List Text) (item : Text) :
    (before ++ [item]).foldlM Known.add {} = before.foldlM Known.add {} >>= (·.add item) := by
  rw [List.foldlM_append]
  simp only [List.foldlM_cons, List.foldlM_nil, bind_pure]

theorem yields_of_run (run : items.foldlM Known.add {} = .ok k) : Yields items k := by
  induction items using List.reverseRecOn generalizing k with
  | nil =>
      cases run
      exact .nothing
  | append_singleton before item ih =>
      rw [run_concat, bind_eq_ok_iff] at run
      obtain ⟨known, first, added⟩ := run
      exact (ih first).concat added

theorem run_of_yields (yields : Yields items k) : items.foldlM Known.add {} = .ok k := by
  have more (before : List Text) {item : Text} {known known' : Known}
      (run : before.foldlM Known.add {} = .ok known) (added : known.add item = .ok known') :
      (before ++ [item]).foldlM Known.add {} = .ok known' := by
    rw [run_concat, run]
    exact added
  have first {field : HandoffField} {value : Text} {known : Known}
      (learns : Learns {} field value known) :
      [pair field value].foldlM Known.add {} = .ok known :=
    more [] rfl ((add_pair_eq_ok_iff (by cases field <;> rfl)).mpr learns)
  cases yields with
  | nothing => rfl
  | destination decoded => exact first (.destination decoded)
  | kind names => exact first (.kind names)
  | both hands =>
      cases hands with
      | destinationFirst decoded names =>
          apply more [_] (first (.destination decoded))
          exact (add_pair_eq_ok_iff rfl).mpr (.kind names)
      | kindFirst decoded names =>
          apply more [_] (first (.kind names))
          exact (add_pair_eq_ok_iff rfl).mpr (.destination decoded)

theorem concat_eq_append_cons_iff {xs ys zs : List Text} {x y : Text} :
    xs ++ [x] = ys ++ y :: zs ↔
      (zs = [] ∧ xs = ys ∧ x = y) ∨ ∃ rest, zs = rest ++ [x] ∧ xs = ys ++ y :: rest := by
  constructor
  · intro same
    rcases List.eq_nil_or_concat zs with rfl | ⟨rest, z, rfl⟩
    · obtain ⟨rfl, last⟩ := List.append_inj' same rfl
      exact .inl ⟨rfl, rfl, List.singleton_inj.mp last⟩
    · rw [List.concat_eq_append, ← List.cons_append, ← List.append_assoc] at same
      obtain ⟨rfl, last⟩ := List.append_inj' same rfl
      rw [List.singleton_inj.mp last]
      exact .inr ⟨rest, List.concat_eq_append, rfl⟩
  · rintro (⟨rfl, rfl, rfl⟩ | ⟨rest, rfl, rfl⟩)
    · rfl
    · simp

theorem sound_concat_iff :
    Sound (before ++ [item]) ↔ Sound before ∧ ∀ fault, ¬ Offends before item fault := by
  simp only [Sound, concat_eq_append_cons_iff]
  constructor
  · intro sound
    refine ⟨?_, fun fault => sound before item [] fault (.inl ⟨rfl, rfl, rfl⟩)⟩
    intro front inner rest fault whole
    exact sound front inner (rest ++ [item]) fault (.inr ⟨rest, rfl, whole⟩)
  · rintro ⟨sound, last⟩ front inner after fault (⟨-, rfl, rfl⟩ | ⟨rest, -, whole⟩)
    · exact last fault
    · exact sound front inner rest fault whole

theorem firstFault_concat_iff :
    FirstFault (before ++ [item]) fault ↔
      FirstFault before fault ∨ (Sound before ∧ Offends before item fault) := by
  simp only [FirstFault, concat_eq_append_cons_iff]
  constructor
  · rintro ⟨front, inner, after, ⟨-, rfl, rfl⟩ | ⟨rest, -, whole⟩, sound, offends⟩
    · exact .inr ⟨sound, offends⟩
    · exact .inl ⟨front, inner, rest, whole, sound, offends⟩
  · rintro (⟨front, inner, rest, whole, sound, offends⟩ | ⟨sound, offends⟩)
    · exact ⟨front, inner, rest ++ [item], .inr ⟨rest, rfl, whole⟩, sound, offends⟩
    · exact ⟨before, item, [], .inl ⟨rfl, rfl, rfl⟩, sound, offends⟩

theorem sound_iff : Sound items ↔ ∃ k, items.foldlM Known.add {} = .ok k := by
  induction items using List.reverseRecOn with
  | nil => simp [Sound, pure, Except.pure]
  | append_singleton before item ih =>
      rw [sound_concat_iff, ih, run_concat]
      constructor
      · rintro ⟨⟨k, run⟩, unoffending⟩
        cases added : k.add item with
        | ok k' => exact ⟨k', bind_eq_ok_iff.mpr ⟨k, run, added⟩⟩
        | error fault =>
            exact absurd ((add_eq_error_iff (yields_of_run run)).mp added) (unoffending fault)
      · rintro ⟨k', whole⟩
        obtain ⟨k, run, added⟩ := bind_eq_ok_iff.mp whole
        refine ⟨⟨k, run⟩, ?_⟩
        intro fault offends
        rw [(add_eq_error_iff (yields_of_run run)).mpr offends] at added
        cases added

/-- A run over pairs fails with what is wrong with the leftmost that offends. -/
theorem run_eq_error_iff : items.foldlM Known.add {} = .error fault ↔ FirstFault items fault := by
  induction items using List.reverseRecOn with
  | nil => simp [FirstFault, pure, Except.pure]
  | append_singleton before item ih =>
      rw [run_concat, bind_eq_error_iff, firstFault_concat_iff, ih, sound_iff]
      constructor
      · rintro (earlier | ⟨k, run, refused⟩)
        · exact .inl earlier
        · exact .inr ⟨⟨k, run⟩, (add_eq_error_iff (yields_of_run run)).mp refused⟩
      · rintro (earlier | ⟨⟨k, run⟩, offends⟩)
        · exact .inl earlier
        · exact .inr ⟨k, run, (add_eq_error_iff (yields_of_run run)).mpr offends⟩

theorem finish_eq_ok_iff (yields : Yields items k) {h : Handoff} :
    k.finish = .ok h ↔ Hands items h := by
  constructor
  · intro finished
    cases yields with
    | both hands =>
        cases finished
        exact hands
    | nothing | destination | kind => cases finished
  · intro hands
    have known := run_of_yields (.both hands)
    rw [run_of_yields yields] at known
    rw [Except.ok.inj known]
    rfl

theorem finish_eq_error_iff (yields : Yields items k) :
    k.finish = .error fault ↔ Missing items fault := by
  constructor
  · intro missing
    cases destination : k.destination with
    | none =>
        simp only [Known.finish, destination] at missing
        cases missing
        apply Missing.destination
        exact (yields.has_eq_false_iff .destination).mp (by simp [Known.has, destination])
    | some d =>
        obtain ⟨value, member⟩ : ∃ value, pair .destination value ∈ items :=
          (yields.has_iff .destination).mp (by simp [Known.has, destination])
        cases kind : k.kind with
        | none =>
            simp only [Known.finish, destination, kind] at missing
            cases missing
            apply Missing.kind member
            exact (yields.has_eq_false_iff .kind).mp (by simp [Known.has, kind])
        | some c => simp [Known.finish, destination, kind] at missing
  · intro missing
    cases missing with
    | destination absent =>
        have unknown : k.destination = none := by
          simpa [Known.has] using (yields.has_eq_false_iff .destination).mpr absent
        simp only [Known.finish, unknown]
    | @kind value member absent =>
        have known : k.has .destination = true := (yields.has_iff .destination).mpr ⟨value, member⟩
        obtain ⟨d, known⟩ := Option.isSome_iff_exists.mp known
        have unknown : k.kind = none := by
          simpa [Known.has] using (yields.has_eq_false_iff .kind).mpr absent
        simp only [Known.finish, known, unknown]

theorem ofQuery_of_hasPairs {query : Text} (has : HasPairs query items) :
    ofQuery query = items.foldlM Known.add {} >>= Known.finish := by
  rw [has.eq_pairs, ofQuery]
  cases (pairs query).foldlM Known.add {} <;> rfl

theorem ofQuery_eq_ok_iff {query : Text} (has : HasPairs query items) {h : Handoff} :
    ofQuery query = .ok h ↔ Hands items h := by
  rw [ofQuery_of_hasPairs has, bind_eq_ok_iff]
  constructor
  · rintro ⟨k, run, finished⟩
    exact (finish_eq_ok_iff (yields_of_run run)).mp finished
  · intro hands
    exact ⟨_, run_of_yields (.both hands), rfl⟩

theorem ofQuery_eq_error_iff {query : Text} (has : HasPairs query items) :
    ofQuery query = .error fault ↔
      FirstFault items fault ∨ (Sound items ∧ Missing items fault) := by
  rw [ofQuery_of_hasPairs has, bind_eq_error_iff, run_eq_error_iff, sound_iff]
  constructor
  · rintro (first | ⟨k, run, unfinished⟩)
    · exact .inl first
    · exact .inr ⟨⟨k, run⟩, (finish_eq_error_iff (yields_of_run run)).mp unfinished⟩
  · rintro (first | ⟨⟨k, run⟩, missing⟩)
    · exact .inl first
    · exact .inr ⟨k, run, (finish_eq_error_iff (yields_of_run run)).mpr missing⟩

end Run

theorem Hands.perm {items items' : List Text} {h : Handoff} (hands : Hands items h)
    (perm : items.Perm items') : Hands items' h := by
  cases hands with
  | destinationFirst decoded names =>
      rcases List.pair_perm.mp perm with rfl | rfl
      · exact .destinationFirst decoded names
      · exact .kindFirst decoded names
  | kindFirst decoded names =>
      rcases List.pair_perm.mp perm with rfl | rfl
      · exact .kindFirst decoded names
      · exact .destinationFirst decoded names

/-- A query is a hand-off if its two pairs state both fields, in whatever order and with whatever
empty pieces. In any other the leftmost pair that offends is reported, and a field that is missing
only where none does. -/
theorem ofQuery_iff_pairs (query : Text) :
    (∃! items, HasPairs query items) ∧
      ∀ items, HasPairs query items →
        (∀ h, ofQuery query = .ok h ↔ Hands items h) ∧
          (∀ fault, ofQuery query = .error fault ↔
            FirstFault items fault ∨ (Sound items ∧ Missing items fault)) ∧
          ∀ query' items', HasPairs query' items' → items.Perm items' →
            ∀ h, ofQuery query = .ok h → ofQuery query' = .ok h := by
  refine ⟨⟨pairs query, hasPairs_pairs query, fun _ has => has.eq_pairs⟩, ?_⟩
  intro items has
  refine ⟨fun h => ofQuery_eq_ok_iff has, fun fault => ofQuery_eq_error_iff has, ?_⟩
  intro query' items' has' perm h read
  exact (ofQuery_eq_ok_iff has').mpr (((ofQuery_eq_ok_iff has).mp read).perm perm)

theorem ofQuery_iff_pairs_of_swapped :
    let kind := "kind=node_public_key".toList
    let destination := "destination=a=%zz%41".toList
    let accented := "destination=caf%C3%A9".toList
    let undecodable := "destination=%FF".toList
    let query := "&kind=node_public_key&&destination=a=%zz%41".toList
    let swapped := "destination=a=%zz%41&kind=node_public_key&".toList
    let multibyte := "kind=node_public_key&destination=caf%C3%A9".toList
    let twice := "destination=a=%zz%41&destination=%FF&kind".toList
    let alone := "kind=node_public_key&destination=%FF".toList
    let h : Handoff := ⟨"a=%zzA".toList, .nodePublicKey⟩
    HasPairs query [kind, destination] ∧ ofQuery query = .ok h ∧
      HasPairs swapped [destination, kind] ∧ ofQuery swapped = .ok h ∧
      HasPairs multibyte [kind, accented] ∧
      ofQuery multibyte = .ok ⟨['c', 'a', 'f', 'é'], .nodePublicKey⟩ ∧
      HasPairs twice [destination, undecodable, "kind".toList] ∧
      ofQuery twice = .error (.duplicateField .destination) ∧
      HasPairs alone [kind, undecodable] ∧ ofQuery alone = .error .invalidEncoding := by
  intro kind destination accented undecodable query swapped multibyte twice alone h
  have has : HasPairs query [kind, destination] :=
    ⟨[[], kind, [], destination], by decide +kernel, by decide +kernel, by decide +kernel⟩
  have has' : HasPairs swapped [destination, kind] :=
    ⟨[destination, kind, []], by decide +kernel, by decide +kernel, by decide +kernel⟩
  have hasMultibyte : HasPairs multibyte [kind, accented] :=
    ⟨[kind, accented], by decide +kernel, by decide +kernel, by decide +kernel⟩
  have hasTwice : HasPairs twice [destination, undecodable, "kind".toList] :=
    ⟨[destination, undecodable, "kind".toList], by decide +kernel, by decide +kernel,
      by decide +kernel⟩
  have hasAlone : HasPairs alone [kind, undecodable] :=
    ⟨[kind, undecodable], by decide +kernel, by decide +kernel, by decide +kernel⟩
  have decoded : Percent.decode? "a=%zz%41".toList = some h.destination := by decide +kernel
  have decoded' : Percent.decode? "caf%C3%A9".toList = some ['c', 'a', 'f', 'é'] := by
    decide +kernel
  have refused : Percent.decode? "%FF".toList = none := by decide +kernel
  obtain ⟨read, -, reordered⟩ := (ofQuery_iff_pairs query).2 _ has
  have accepted := (read h).mpr (.kindFirst decoded .nodePublicKey)
  refine ⟨has, accepted, has', reordered _ _ has' (List.Perm.swap _ _ _) h accepted, hasMultibyte,
    ?_, hasTwice, ?_, hasAlone, ?_⟩
  · exact (((ofQuery_iff_pairs multibyte).2 _ hasMultibyte).1 _).mpr
      (.kindFirst decoded' .nodePublicKey)
  · apply (((ofQuery_iff_pairs twice).2 _ hasTwice).2.1 _).mpr
    refine .inl ⟨[destination], undecodable, ["kind".toList], rfl, ?_, ?_⟩
    · exact sound_iff.mpr ⟨_, run_of_yields (.destination decoded)⟩
    · have stated : pair .destination "a=%zz%41".toList ∈ [destination] := List.mem_cons_self
      exact .duplicate stated
  · apply (((ofQuery_iff_pairs alone).2 _ hasAlone).2.1 _).mpr
    refine .inl ⟨[kind], undecodable, [], rfl, ?_, ?_⟩
    · exact sound_iff.mpr ⟨_, run_of_yields (.kind .nodePublicKey)⟩
    · have unstated : ∀ first, pair .destination first ∉ [kind] := by
        intro first member
        have same : pair .destination first = pair .kind "node_public_key".toList :=
          List.mem_singleton.mp member
        cases (pair_inj.mp same).1
      exact .unfit unstated (.encoding refused)

end Handoff

end PaymentTarget
