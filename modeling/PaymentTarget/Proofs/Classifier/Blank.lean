import PaymentTarget.Proofs.Classifier.Bare
import PaymentTarget.Send.Intent

/-! # Blanks around a destination

No format has blanks: what a scheme reads is unbroken, except for the
parameters of a URI, which are not looked at. A blank in front of a text
therefore makes it nothing, and so does one behind it, unless it lengthens
parameters.
-/

namespace PaymentTarget

theorem isBlank_of_visible {c : Char} (visible : Hrp.isVisible c) : isBlank c = false := by
  unfold Hrp.isVisible at visible
  simp only [isBlank, inRanges, blankRanges, List.any_cons, List.any_nil, Bool.or_false,
    Bool.or_eq_false_iff, Bool.and_eq_false_iff, decide_eq_false_iff_not]
  omega

theorem isBlank_toLower (c : Char) : isBlank c.toLower = isBlank c := by
  by_cases capital : c.isUpper = true
  · have range := Text.isUpper_iff.mp capital
    have visible : Hrp.isVisible c := by
      unfold Hrp.isVisible
      omega
    rw [isBlank_of_visible visible, isBlank_of_visible (Hrp.isVisible_toLower visible)]
  · rw [Char.toLower_eq_of_not_isUpper capital]

theorem isBlank_of_isAlphanum {c : Char} (alphanumeric : c.isAlphanum = true) :
    isBlank c = false := by
  apply isBlank_of_visible
  simp only [Char.isAlphanum, Char.isAlpha, Bool.or_eq_true, Text.isUpper_iff, Text.isLower_iff,
    Text.isDigit_iff] at alphanumeric
  unfold Hrp.isVisible
  omega

/-- No character of the text is blank. -/
def Text.Unbroken (t : Text) : Prop :=
  ∀ c ∈ t, isBlank c = false

instance (t : Text) : Decidable t.Unbroken :=
  List.decidableBAll (fun c => isBlank c = false) t

namespace Text

variable {a b t : Text}

theorem unbroken_append_iff : Unbroken (a ++ b) ↔ a.Unbroken ∧ b.Unbroken :=
  List.forall_mem_append

theorem unbroken_cons_iff {c : Char} : Unbroken (c :: t) ↔ isBlank c = false ∧ t.Unbroken :=
  List.forall_mem_cons

theorem unbroken_lower_iff : t.lower.Unbroken ↔ t.Unbroken := by
  simp only [Unbroken, lower, List.forall_mem_map, isBlank_toLower]

end Text

section Formats

variable {t : Text}

theorem Hex.unbroken_encode (bytes : List UInt8) : (Hex.encode bytes).Unbroken :=
  fun _ member => isBlank_of_isAlphanum (Hex.isAlphanum_of_mem_encode member)

theorem Base58.unbroken_of_decode? {bytes : List UInt8} (decoded : Base58.decode? t = some bytes) :
    t.Unbroken := by
  have all : ∀ v : Fin 58, isBlank (digit v) = false := by decide
  rw [decode?_eq_convert, Option.map_eq_some_iff] at decoded
  obtain ⟨values, read, -⟩ := decoded
  obtain ⟨below, rfl⟩ := mapM_digitValue?_eq_some_iff.mp read
  intro c member
  obtain ⟨v, inside, rfl⟩ := List.mem_map.mp member
  exact all ⟨v, below v inside⟩

theorem Word.unbroken_of_read? {w : Word} (read : Word.read? t = some w) : t.Unbroken := by
  have symbols : ∀ s : Symbol, isBlank s.toChar = false := by decide
  obtain ⟨-, sound, written⟩ := Word.read?_eq_some_iff.mp read
  obtain ⟨-, -, visible, -⟩ := Hrp.fault?_eq_none_iff.mp sound
  rw [← Text.unbroken_lower_iff, written, Word.write, Text.unbroken_append_iff,
    Text.unbroken_cons_iff]
  refine ⟨fun c member => isBlank_of_visible (visible c member), rfl, ?_⟩
  intro c member
  obtain ⟨s, -, rfl⟩ := List.mem_map.mp member
  exact symbols s

theorem NodeKey.unbroken_of_read {k : NodeKey} (read : NodeKey.read t = .ok k) : t.Unbroken := by
  rw [← Text.unbroken_lower_iff, NodeKey.read_eq_ok_iff.mp read]
  exact Hex.unbroken_encode k.bytes

theorem Socket.unbroken_of_fault? (sound : Socket.fault? t = none) : t.Unbroken := by
  unfold Socket.fault? at sound
  split at sound
  · cases sound
  · split at sound
    · cases sound
    next allowed =>
      intro c member
      have permitted : isForbidden c = false := by
        rw [Bool.not_eq_true, List.any_eq_false] at allowed
        simpa using allowed c member
      simp only [isForbidden, Bool.or_eq_false_iff] at permitted
      exact permitted.1.1.1

theorem NodeTarget.unbroken_of_read {n : NodeTarget} (read : NodeTarget.read t = .ok n) :
    t.Unbroken := by
  obtain ⟨key, socket, rfl, known, sound, -⟩ := NodeTarget.read_eq_ok_iff.mp read
  exact Text.unbroken_append_iff.mpr ⟨NodeKey.unbroken_of_read known,
    Text.unbroken_cons_iff.mpr ⟨rfl, Socket.unbroken_of_fault? sound⟩⟩

theorem Address.unbroken_of_readSegwit {x : Address} (read : Address.readSegwit t = .ok x) :
    t.Unbroken := by
  obtain ⟨p, -, program⟩ := Address.exists_program_of_readSegwit read
  exact Word.unbroken_of_read? (SegwitProgram.word_of_read? program)

theorem Address.unbroken_of_readBase58 {x : Address} (read : Address.readBase58 t = .ok x) :
    t.Unbroken := by
  obtain ⟨b, bytes, decoded, -⟩ := Address.readBase58_eq_ok read
  exact Base58.unbroken_of_decode? decoded

theorem Address.unbroken_of_read {x : Address} (read : Address.read t = .ok x) : t.Unbroken := by
  rcases Address.read_eq_ok_iff.mp read with segwit | base58
  · exact Address.unbroken_of_readSegwit segwit
  · exact Address.unbroken_of_readBase58 base58

theorem Invoice.unbroken_of_read {i : Invoice} (read : Invoice.read t = .ok i) : t.Unbroken := by
  obtain ⟨w, word, -⟩ := Invoice.read_eq_ok_iff.mp read
  exact Word.unbroken_of_read? word

end Formats

namespace Uri

/-- The URI has parameters behind its address. -/
inductive HasParameters : Text → Prop
  | behind {head a parameters : Text} : head.lower = bitcoinScheme → '?' ∉ a →
      HasParameters (head ++ ':' :: (a ++ '?' :: parameters))

variable {t w : Text}

theorem HasParameters.mark_mem (given : HasParameters t) : '?' ∈ t := by
  obtain ⟨-, -⟩ := given
  simp

theorem HasParameters.holds (given : HasParameters t) :
    ∃ a, HoldsAddress a t ∧ ∀ w, HoldsAddress a (t ++ w) := by
  obtain ⟨same, absent⟩ := given
  refine ⟨_, .parameters same absent, ?_⟩
  intro w
  simp only [List.append_assoc, List.cons_append]
  exact .parameters same absent

theorem HasParameters.of_append (given : HasParameters (t ++ w)) (free : '?' ∉ w) :
    HasParameters t := by
  generalize whole : t ++ w = u at given
  obtain @⟨head, a, parameters, same, absent⟩ := given
  rw [← List.cons_append, ← List.append_assoc, List.append_eq_append_iff] at whole
  -- The mark that ends the address lies in `t`, because `w` has none.
  rcases whole with ⟨b, -, inside⟩ | ⟨b, rfl, rest⟩
  · rw [inside] at free
    exact absurd (List.mem_append_right b List.mem_cons_self) free
  · rcases List.cons_eq_append_iff.mp rest with ⟨-, inside⟩ | ⟨c, rfl, -⟩
    · rw [inside] at free
      exact absurd List.mem_cons_self free
    · simp only [List.append_assoc, List.cons_append]
      exact .behind same absent

theorem HasParameters.exists_cons (given : HasParameters t) :
    ∃ c rest, t = c :: rest ∧ isBlank c = false := by
  obtain @⟨head, a, parameters, same, -⟩ := given
  have unbroken : head.Unbroken := by
    rw [← Text.unbroken_lower_iff, same]
    decide
  cases head with
  | nil => cases same
  | cons c rest => exact ⟨c, _, rfl, (Text.unbroken_cons_iff.mp unbroken).1⟩

theorem unbroken_of_body {scheme head body : Text} (same : head.lower = scheme)
    (named : scheme.Unbroken) (unbroken : body.Unbroken) : (head ++ ':' :: body).Unbroken := by
  rw [← same, Text.unbroken_lower_iff] at named
  exact Text.unbroken_append_iff.mpr ⟨named, Text.unbroken_cons_iff.mpr ⟨rfl, unbroken⟩⟩

theorem HoldsAddress.unbroken_or_hasParameters {a : Text} (holds : HoldsAddress a t)
    (unbroken : a.Unbroken) : t.Unbroken ∨ HasParameters t := by
  cases holds with
  | plain same => exact .inl (unbroken_of_body same (by decide) unbroken)
  | parameters same absent => exact .inr (.behind same absent)

theorem HoldsInvoice.unbroken {i : Text} (holds : HoldsInvoice i t) (unbroken : i.Unbroken) :
    t.Unbroken := by
  obtain ⟨same⟩ := holds
  exact unbroken_of_body same (by decide) unbroken

end Uri

open Uri

theorem Scheme.unbroken_or_hasParameters {scheme : Scheme} {t : Text} {d : Destination}
    (read : scheme.read t = .ok d) : t.Unbroken ∨ HasParameters t := by
  cases scheme with
  | nodePublicKey =>
      obtain ⟨key, read, -⟩ := map_eq_ok_iff.mp read
      exact .inl (NodeKey.unbroken_of_read read)
  | connectionString =>
      obtain ⟨target, read, -⟩ := map_eq_ok_iff.mp read
      exact .inl (NodeTarget.unbroken_of_read read)
  | segwitAddress =>
      obtain ⟨address, read, -⟩ := map_eq_ok_iff.mp read
      exact .inl (Address.unbroken_of_readSegwit read)
  | base58Address =>
      obtain ⟨address, read, -⟩ := map_eq_ok_iff.mp read
      exact .inl (Address.unbroken_of_readBase58 read)
  | bitcoinUri =>
      obtain ⟨address, read, -⟩ := map_eq_ok_iff.mp read
      obtain ⟨a, holds, held⟩ := Address.readUri_eq_ok_iff.mp read
      exact holds.unbroken_or_hasParameters (Address.unbroken_of_read held)
  | invoice =>
      obtain ⟨invoice, read, -⟩ := map_eq_ok_iff.mp read
      exact .inl (Invoice.unbroken_of_read read)
  | lightningUri =>
      obtain ⟨invoice, read, -⟩ := map_eq_ok_iff.mp read
      obtain ⟨i, holds, held⟩ := Invoice.readUri_eq_ok_iff.mp read
      exact .inl (holds.unbroken (Invoice.unbroken_of_read held))

namespace Settings

variable {s : Settings} {t w : Text}

/-- The text is no destination, and a send rejects it as that. -/
def Dismisses (s : Settings) (t : Text) : Prop :=
  s.classify t = .unknown ∧ s.decide t = .reject .unparseableDestination

theorem dismisses_of_unread (nonempty : t ≠ [])
    (unread : ∀ (scheme : Scheme) (d : Destination), scheme.read t ≠ .ok d) :
    s.Dismisses t := by
  have classified : s.classify t = .unknown := by
    unfold classify
    split
    next m found =>
      obtain ⟨-, read, -⟩ := resolve_eq_ok_iff.mp found
      exact absurd read (unread m.scheme m.destination)
    · rfl
  refine ⟨classified, ?_⟩
  rw [Settings.decide, if_neg (List.isEmpty_iff.not.mpr nonempty), classified]

section Blanks

variable (nonempty : w ≠ []) (blank : ∀ c ∈ w, isBlank c = true)

include nonempty blank

theorem dismisses_blanks_append : s.Dismisses (w ++ t) := by
  obtain ⟨c, rest, rfl⟩ := List.exists_cons_of_ne_nil nonempty
  have first := blank c List.mem_cons_self
  apply dismisses_of_unread (List.cons_ne_nil c _)
  intro scheme d read
  rcases Scheme.unbroken_or_hasParameters read with unbroken | given
  · rw [unbroken c List.mem_cons_self] at first
    cases first
  · obtain ⟨_, _, ⟨⟩, visible⟩ := given.exists_cons
    rw [visible] at first
    cases first

theorem dismisses_append_blanks (free : ¬ HasParameters t) :
    s.Dismisses (t ++ w) := by
  obtain ⟨c, rest, rfl⟩ := List.exists_cons_of_ne_nil nonempty
  have first := blank c List.mem_cons_self
  apply dismisses_of_unread (List.append_ne_nil_of_right_ne_nil t nonempty)
  intro scheme d read
  rcases Scheme.unbroken_or_hasParameters read with unbroken | given
  · rw [unbroken c (List.mem_append_right t List.mem_cons_self)] at first
    cases first
  · apply free
    apply given.of_append
    intro mark
    exact absurd (blank '?' mark) (by decide)

end Blanks

theorem resolve_append_of_hasParameters (given : HasParameters t) (w : Text) :
    s.resolve (t ++ w) =
      if (t ++ w).size ≤ Text.maxSize then s.resolve t else .error (.tooLong (t ++ w).size) := by
  obtain ⟨a, holds, longer⟩ := given.holds
  split
  next short =>
    have shorter : t.size ≤ Text.maxSize :=
      (Text.size_le_of_infix (List.prefix_append t w).isInfix).trans short
    rw [resolve_of_holdsAddress (longer w) short, resolve_of_holdsAddress holds shorter]
  next long =>
    have nonempty : t ++ w ≠ [] := by
      obtain ⟨c, rest, rfl, -⟩ := given.exists_cons
      exact List.cons_ne_nil c _
    rw [resolve, resolveIn, sizeFailure?, if_neg (List.isEmpty_iff.not.mpr nonempty),
      if_pos (Nat.lt_of_not_le long)]

/-- Blanks in front of a text make it nothing. Behind it they do too, unless they lengthen the
parameters of a URI, which is then read as before. -/
theorem blanks_dismissed (s : Settings) (t w : Text) (nonempty : w ≠ [])
    (blank : ∀ c ∈ w, isBlank c = true) :
    s.Dismisses (w ++ t) ∧
      (¬ HasParameters t → s.Dismisses (t ++ w)) ∧
      (HasParameters t → s.resolve (t ++ w) =
        if (t ++ w).size ≤ Text.maxSize then s.resolve t
        else .error (.tooLong (t ++ w).size)) := by
  refine ⟨dismisses_blanks_append nonempty blank, ?_, ?_⟩
  · intro free
    exact dismisses_append_blanks nonempty blank free
  · intro given
    exact resolve_append_of_hasParameters given w

theorem blanks_dismissed_of_uri :
    let plain : Text := "bitcoin:bc1qw508d6qejxtdg4y5r3zarvary0c5xw7kv8f3t4".toList
    let given : Text := plain ++ "?amount=1".toList
    let w : Text := "\t\u3000\n".toList
    w ≠ [] ∧ (∀ c ∈ w, isBlank c = true) ∧ ¬ HasParameters plain ∧ HasParameters given ∧
      ({} : Settings).Dismisses (w ++ plain) ∧ ({} : Settings).Dismisses (plain ++ w) ∧
      ({} : Settings).Dismisses (w ++ given) ∧
      ({} : Settings).resolve (given ++ w) = .ok ⟨.bitcoinUri, .onChain ⟨.bitcoin, .p2wpkh⟩⟩ := by
  intro plain given w
  have nonempty : w ≠ [] := by decide +kernel
  have blank : ∀ c ∈ w, isBlank c = true := List.all_eq_true.mp (by decide +kernel)
  have free : ¬ HasParameters plain := by
    intro has
    exact absurd has.mark_mem (by decide +kernel)
  have has : HasParameters given := by
    have uri : HasParameters ("bitcoin".toList ++
        ':' :: ("bc1qw508d6qejxtdg4y5r3zarvary0c5xw7kv8f3t4".toList ++ '?' :: "amount=1".toList)) :=
      .behind (by decide) (by decide +kernel)
    exact uri
  have found : ({} : Settings).resolve given =
      .ok ⟨.bitcoinUri, .onChain ⟨.bitcoin, .p2wpkh⟩⟩ := by
    decide +kernel
  obtain ⟨front, behind, -⟩ := blanks_dismissed {} plain w nonempty blank
  obtain ⟨front', -, lengthened⟩ := blanks_dismissed {} given w nonempty blank
  refine ⟨nonempty, blank, free, has, front, behind free, front', ?_⟩
  rw [lengthened has, if_pos (by decide +kernel), found]

/-- Blanks behind parameters do not make a text nothing. -/
theorem not_dismissed_behind_parameters :
    ¬ ∀ (s : Settings) (t w : Text), s.classify t ≠ .unknown → w ≠ [] →
      (∀ c ∈ w, isBlank c = true) → s.Dismisses (w ++ t) ∧ s.Dismisses (t ++ w) := by
  intro all
  let t : Text := "bitcoin:bc1qw508d6qejxtdg4y5r3zarvary0c5xw7kv8f3t4?amount=1".toList
  have classified : ({} : Settings).classify t = .onChainAddress := by decide +kernel
  have accepted : ({} : Settings).classify (t ++ [' ']) = .onChainAddress := by decide +kernel
  obtain ⟨-, dismissed, -⟩ := all {} t [' '] (by simp [classified]) (by simp)
    (List.forall_mem_singleton.mpr rfl)
  rw [accepted] at dismissed
  cases dismissed

end Settings

end PaymentTarget
