import PaymentTarget.Node.Target
import PaymentTarget.Proofs.Radix
import PaymentTarget.Proofs.Text

/-! # The grammar of sockets

A host stands by itself, and then holds no colon, or in brackets, and then holds
no closing bracket. Behind it may come a colon and a port. The reader finds the
end of a bracketed host by its first closing bracket and that of any other host
by the last colon of the socket; what it accepts is the grammar, because a port
is made of digits and no host can hold the character that ends it.
-/

namespace PaymentTarget

theorem Radix.map_digits {n : Nat} (positive : 0 < n) :
    (Radix.digits 10 n).map Nat.digitChar = Nat.toDigits 10 n := by
  induction n using Nat.strongRecOn with
  | ind n ih =>
      rw [Radix.digits, dif_pos ⟨positive, by decide⟩, List.map_append, List.map_singleton]
      by_cases single : n < 10
      · simp [Nat.div_eq_of_lt single, Nat.mod_eq_of_lt single, Radix.digits_zero,
          Nat.toDigits_of_lt_base single]
      · rw [Nat.toDigits_of_base_le (by decide) (by omega), ih (n / 10) (by omega) (by omega)]

namespace Text

theorem digitChar_of_isDigit {c : Char} (digit : c.isDigit = true) :
    Nat.digitChar (c.toNat - '0'.toNat) = c := by
  have range := isDigit_iff.mp digit
  have zero : '0'.toNat = 48 := rfl
  apply Char.toNat_inj.mp
  rw [Nat.toNat_digitChar_of_lt_ten (by omega)]
  omega

theorem value_toDigits {n : Nat} (positive : 0 < n) :
    Radix.value 10 ((Nat.toDigits 10 n).map fun c => c.toNat - '0'.toNat) = n := by
  have digits : (Nat.toDigits 10 n).map (fun c => c.toNat - '0'.toNat) = Radix.digits 10 n := by
    rw [← Radix.map_digits positive, List.map_map]
    conv_rhs => rw [← List.map_id (Radix.digits 10 n)]
    apply List.map_congr_left
    intro d member
    exact Nat.toNat_digitChar_sub_48_of_lt_ten (Radix.digits_lt member)
  rw [digits, Radix.value_digits (by decide)]

/-- Digits that write a number other than zero are its decimal text behind some zeros. -/
theorem numeral_iff {t : Text} {n : Nat} (positive : 0 < n) :
    (∃ zeros, t = List.replicate zeros '0' ++ Nat.toDigits 10 n) ↔
      (∀ c ∈ t, c.isDigit = true) ∧ Radix.value 10 (t.map fun c => c.toNat - '0'.toNat) = n := by
  constructor
  · intro ⟨zeros, written⟩
    subst written
    constructor
    · intro c member
      rcases List.mem_append.mp member with zero | digit
      · rw [List.eq_of_mem_replicate zero]
        rfl
      · exact Nat.isDigit_of_mem_toDigits (by decide) (by decide) digit
    · rw [List.map_append, List.map_replicate, Nat.sub_self, Radix.value_zeros,
        value_toDigits positive]
  · intro ⟨decimal, number⟩
    have digits : (t.map fun c => c.toNat - '0'.toNat).map Nat.digitChar = t := by
      rw [List.map_map]
      conv_rhs => rw [← List.map_id t]
      apply List.map_congr_left
      intro c member
      exact digitChar_of_isDigit (decimal c member)
    have below : ∀ d ∈ t.map fun c => c.toNat - '0'.toNat, d < 10 := by
      intro d member
      obtain ⟨c, inside, value⟩ := List.mem_map.mp member
      have range := isDigit_iff.mp (decimal c inside)
      have zero : '0'.toNat = 48 := rfl
      omega
    obtain ⟨rest, whole, leads⟩ := Radix.leading_zeros (t.map fun c => c.toNat - '0'.toNat)
    rw [whole, Radix.value_zeros] at number
    rw [whole] at below digits
    have canonical : Radix.digits 10 n = rest := by
      rw [← number]
      exact Radix.digits_value (by decide) (fun d member => below d (by simp [member])) leads
    rw [List.map_append, List.map_replicate, ← canonical, Radix.map_digits positive] at digits
    exact ⟨_, digits.symm⟩

end Text

namespace Socket

/-- The decimal text of a number from 1 to 65535, perhaps with zeros and a plus sign in front. -/
inductive PortText : Text → Prop
  | digits {n : Nat} (zeros : Nat) : 1 ≤ n → n ≤ 65535 →
      PortText (List.replicate zeros '0' ++ Nat.toDigits 10 n)
  | plus {n : Nat} (zeros : Nat) : 1 ≤ n → n ≤ 65535 →
      PortText ('+' :: (List.replicate zeros '0' ++ Nat.toDigits 10 n))

/-- A host, by itself or in brackets. -/
inductive HostText : Text → Prop
  | bare {host : Text} : host ≠ [] → ':' ∉ host → host.head? ≠ some '[' → HostText host
  | bracketed {host : Text} : host ≠ [] → ']' ∉ host → HostText ('[' :: (host ++ [']']))

/-- A host, and perhaps a port behind a colon. -/
inductive Form : Text → Prop
  | host {host : Text} : HostText host → Form host
  | port {host port : Text} : HostText host → PortText port → Form (host ++ ':' :: port)

/-- A socket has this form, and neither part of it a character that is forbidden. -/
structure Written (t : Text) : Prop where
  visible : ∀ c ∈ t, isBlank c = false ∧ isControl c = false
  plain : '@' ∉ t ∧ '/' ∉ t
  form : Form t

/-- What is left of a port without its sign is read as a number. -/
theorem number_iff {t : Text} :
    (!t.isEmpty && t.all Char.isDigit && 0 < Radix.value 10 (t.map fun c => c.toNat - '0'.toNat) &&
        Radix.value 10 (t.map fun c => c.toNat - '0'.toNat) < Nat.pow 2 16) = true ↔
      ∃ n zeros, 1 ≤ n ∧ n ≤ 65535 ∧ t = List.replicate zeros '0' ++ Nat.toDigits 10 n := by
  simp only [Bool.and_eq_true, Bool.not_eq_true', decide_eq_true_eq, List.all_eq_true]
  constructor
  · intro ⟨⟨⟨_, decimal⟩, positive⟩, small⟩
    obtain ⟨zeros, written⟩ := (Text.numeral_iff positive).mpr ⟨decimal, rfl⟩
    exact ⟨_, zeros, positive, Nat.le_of_lt_succ small, written⟩
  · intro ⟨n, zeros, positive, most, written⟩
    obtain ⟨decimal, number⟩ := (Text.numeral_iff positive).mp ⟨zeros, written⟩
    have nonempty : t ≠ [] := by simp [written, Nat.toDigits_ne_nil]
    rw [number]
    exact ⟨⟨⟨List.isEmpty_eq_false_iff.mpr nonempty, decimal⟩, positive⟩, Nat.lt_succ_of_le most⟩

theorem isPort_iff {t : Text} : isPort t = true ↔ PortText t := by
  constructor
  · intro sound
    unfold isPort at sound
    obtain ⟨n, zeros, least, most, written⟩ := number_iff.mp sound
    split at written
    next sign =>
      obtain ⟨rest, rfl⟩ := List.head?_eq_some_iff.mp sign
      rw [List.tail_cons] at written
      rw [written]
      exact .plus zeros least most
    next =>
      rw [written]
      exact .digits zeros least most
  · intro text
    apply number_iff.mpr
    cases text with
    | @digits n zeros least most =>
        have decimal := ((Text.numeral_iff least).mp ⟨zeros, rfl⟩).1
        refine ⟨n, zeros, least, most, if_neg ?_⟩
        intro sign
        exact absurd (decimal '+' (List.mem_of_head? sign)) (by decide)
    | @plus n zeros least most => exact ⟨n, zeros, least, most, if_pos rfl⟩

theorem PortText.colon_not_mem {t : Text} (text : PortText t) : ':' ∉ t := by
  have decimal {n : Nat} (zeros : Nat) (least : 1 ≤ n) :
      ':' ∉ List.replicate zeros '0' ++ Nat.toDigits 10 n := by
    intro member
    exact absurd (((Text.numeral_iff least).mp ⟨zeros, rfl⟩).1 ':' member) (by decide)
  cases text with
  | digits zeros least _ => exact decimal zeros least
  | plus zeros least _ => exact List.not_mem_cons_of_ne_of_not_mem (by decide) (decimal zeros least)

theorem any_isForbidden_eq_false_iff {t : Text} :
    t.any isForbidden = false ↔
      (∀ c ∈ t, isBlank c = false ∧ isControl c = false) ∧ '@' ∉ t ∧ '/' ∉ t := by
  rw [List.any_eq_false]
  constructor
  · intro allowed
    refine ⟨?_, ?_, ?_⟩
    · intro c member
      have clean := allowed c member
      simp only [isForbidden, Bool.not_eq_true, Bool.or_eq_false_iff] at clean
      exact clean.1.1
    · intro at_
      exact allowed '@' at_ (by decide)
    · intro slash
      exact allowed '/' slash (by decide)
  · intro ⟨visible, noAt, noSlash⟩ c member
    simp [isForbidden, visible c member, ne_of_mem_of_not_mem member noAt,
      ne_of_mem_of_not_mem member noSlash]

theorem partsFault?_eq_none_iff {bracketed : Bool} {host : Text} {port : Option Text} :
    partsFault? bracketed host port = none ↔
      host ≠ [] ∧ (bracketed = false → ':' ∉ host) ∧ ∀ text, port = some text → PortText text := by
  simp only [← isPort_iff]
  unfold partsFault?
  cases port <;> grind

theorem HostText.ne_nil {t : Text} (text : HostText t) : t ≠ [] := by
  cases text with
  | bare nonempty _ _ => exact nonempty
  | bracketed _ _ => exact List.cons_ne_nil _ _

theorem Form.ne_nil {t : Text} (form : Form t) : t ≠ [] := by
  cases form with
  | host text => exact text.ne_nil
  | port text _ => simp [text.ne_nil]

theorem form_of_split {t host : Text} {port : Option Text} (cut : split t = .ok (host, port))
    (sound : partsFault? (t.head? == some '[') host port = none) : Form t := by
  obtain ⟨nonempty, noColon, numbered⟩ := partsFault?_eq_none_iff.mp sound
  unfold split at cut
  split at cut
  next rest =>
    split at cut
    · cases cut
    next inner closed =>
      obtain ⟨absent, whole⟩ := Text.splitFirst?_eq_some_iff.mp closed
      obtain ⟨rfl, rfl⟩ := Prod.mk.inj (Except.ok.inj cut)
      rw [whole]
      exact .host (.bracketed nonempty absent)
    next inner behind closed =>
      obtain ⟨absent, whole⟩ := Text.splitFirst?_eq_some_iff.mp closed
      obtain ⟨rfl, rfl⟩ := Prod.mk.inj (Except.ok.inj cut)
      have form := Form.port (.bracketed nonempty absent) (numbered behind rfl)
      rw [whole]
      simpa using form
    · cases cut
  next open_ =>
    have unbracketed : t.head? ≠ some '[' := by
      intro head
      obtain ⟨rest, rfl⟩ := List.head?_eq_some_iff.mp head
      exact open_ rest rfl
    have bare := noColon (by simpa using unbracketed)
    split at cut
    next uncut =>
      obtain ⟨rfl, rfl⟩ := Prod.mk.inj (Except.ok.inj cut)
      exact .host (.bare nonempty bare unbracketed)
    next before behind parted =>
      obtain ⟨rfl, rfl⟩ := Prod.mk.inj (Except.ok.inj cut)
      have whole := Text.eq_of_splitLast? parted
      rw [whole] at unbracketed ⊢
      rw [List.head?_append_of_ne_nil _ nonempty] at unbracketed
      exact .port (.bare nonempty bare unbracketed) (numbered behind rfl)

theorem split_bare {t : Text} (unbracketed : t.head? ≠ some '[') :
    split t =
      match t.splitLast? ':' with
      | none => .ok (t, none)
      | some (host, port) => .ok (host, some port) := by
  unfold split
  split
  next rest => exact absurd rfl unbracketed
  · rfl

theorem split_of_form {t : Text} (form : Form t) :
    ∃ host port, split t = .ok (host, port) ∧
      partsFault? (t.head? == some '[') host port = none := by
  cases form with
  | host text =>
      cases text with
      | bare nonempty noColon unbracketed =>
          refine ⟨t, none, ?_, partsFault?_eq_none_iff.mpr ⟨nonempty, fun _ => noColon, ?_⟩⟩
          · rw [split_bare unbracketed, Text.splitLast?_eq_none noColon]
          · simp
      | @bracketed host nonempty noBracket =>
          refine ⟨host, none, ?_, partsFault?_eq_none_iff.mpr ⟨nonempty, ?_, ?_⟩⟩
          · simp [split, Text.splitFirst?_append noBracket]
          · simp
          · simp
  | @port hostText port text numbered =>
      cases text with
      | bare nonempty noColon unbracketed =>
          have unbracketed' : (hostText ++ ':' :: port).head? ≠ some '[' := by
            rwa [List.head?_append_of_ne_nil _ nonempty]
          refine ⟨hostText, some port, ?_,
            partsFault?_eq_none_iff.mpr ⟨nonempty, fun _ => noColon, ?_⟩⟩
          · rw [split_bare unbracketed', Text.splitLast?_append _ numbered.colon_not_mem]
          · simpa using numbered
      | @bracketed host nonempty noBracket =>
          refine ⟨host, some port, ?_, partsFault?_eq_none_iff.mpr ⟨nonempty, ?_, ?_⟩⟩
          · simp [split, Text.splitFirst?_append noBracket]
          · simp
          · simpa using numbered

/-- The sockets without a fault are those of the grammar. -/
theorem fault?_eq_none_iff {t : Text} : fault? t = none ↔ Written t := by
  constructor
  · intro sound
    unfold fault? at sound
    split at sound
    · cases sound
    · split at sound
      · cases sound
      next allowed =>
        split at sound
        · cases sound
        next host port cut =>
          rw [Bool.not_eq_true, any_isForbidden_eq_false_iff] at allowed
          exact ⟨allowed.1, allowed.2, form_of_split cut sound⟩
  · intro ⟨visible, plain, form⟩
    have allowed := any_isForbidden_eq_false_iff.mpr ⟨visible, plain⟩
    obtain ⟨host, port, cut, sound⟩ := split_of_form form
    rw [fault?, if_neg (List.isEmpty_iff.not.mpr form.ne_nil), if_neg (by simp [allowed]), cut]
    exact sound

end Socket

end PaymentTarget
