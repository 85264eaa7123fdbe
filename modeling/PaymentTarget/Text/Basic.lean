/-! # Texts

A text is the list of its characters. Sizes are counted in bytes of the UTF-8
form, because that is how limits on texts are stated. Letter case means the
twenty-six ASCII letters only; every other character is its own lower and
upper form.
-/

namespace PaymentTarget

/-- What a payer enters, character by character. -/
abbrev Text := List Char

namespace Text

/-- Number of bytes in the UTF-8 form. -/
def size (t : Text) : Nat :=
  t.foldr (fun c size => c.utf8Size + size) 0

/-- The most bytes with which a text is looked at. -/
def maxSize : Nat := 8192

/-- The part before the first `sep` and the part after it. -/
def splitFirst? (sep : Char) : Text → Option (Text × Text)
  | [] => none
  | c :: rest =>
      if c = sep then some ([], rest)
      else (splitFirst? sep rest).map fun (before, after) => (c :: before, after)

/-- The part before the last `sep` and the part after it. -/
def splitLast? (sep : Char) : Text → Option (Text × Text)
  | [] => none
  | c :: rest =>
      match splitLast? sep rest with
      | some (before, after) => some (c :: before, after)
      | none => if c = sep then some ([], rest) else none

/-- Every ASCII capital replaced by its small letter. -/
def lower (t : Text) : Text :=
  t.map Char.toLower

/-- Every small ASCII letter replaced by its capital. -/
def upper (t : Text) : Text :=
  t.map Char.toUpper

/-- Whether capitals and small letters both occur. -/
def isMixedCase (t : Text) : Bool :=
  t.any Char.isUpper && t.any Char.isLower

/-- Equality up to letter case. -/
def sameLetters (a b : Text) : Bool :=
  lower a == lower b

/-- A cut at the first separator loses the separator and nothing else. -/
theorem eq_of_splitFirst? {sep : Char} {t before after : Text}
    (h : splitFirst? sep t = some (before, after)) : t = before ++ sep :: after := by
  induction t generalizing before with
  | nil => simp [splitFirst?] at h
  | cons c rest ih =>
      simp only [splitFirst?] at h
      split at h
      next hc => simp_all
      next =>
        obtain ⟨⟨b, a⟩, hb, heq⟩ := Option.map_eq_some_iff.1 h
        simp only [Prod.mk.injEq] at heq
        obtain ⟨rfl, rfl⟩ := heq
        simp [ih hb]

/-- A cut at the last separator loses the separator and nothing else. -/
theorem eq_of_splitLast? {sep : Char} {t before after : Text}
    (h : splitLast? sep t = some (before, after)) : t = before ++ sep :: after := by
  induction t generalizing before after with
  | nil => simp [splitLast?] at h
  | cons c rest ih =>
      simp only [splitLast?] at h
      split at h
      next b a hba =>
        simp only [Option.some.injEq, Prod.mk.injEq] at h
        obtain ⟨rfl, rfl⟩ := h
        simp [ih hba]
      next => split at h <;> simp_all

end Text

end PaymentTarget
