import Mathlib
import PaymentTarget.Bits

/-! # Bytes that pass through symbols

Symbols carry bytes without loss: the zeros that fill the last symbol are fewer
than a byte has bits, so they are left out when the bytes are cut again. The
lengths of both forms depend on each other only through the number of bits.
-/

namespace PaymentTarget

namespace Bits

theorem ofBytes_cons (b : UInt8) (bytes : List UInt8) :
    ofBytes (b :: bytes) = ofByte b ++ ofBytes bytes :=
  rfl

theorem ofSymbols_cons (s : Symbol) (symbols : List Symbol) :
    ofSymbols (s :: symbols) = ofSymbol s ++ ofSymbols symbols :=
  rfl

theorem length_ofBytes (bytes : List UInt8) : (ofBytes bytes).length = 8 * bytes.length := by
  induction bytes with
  | nil => rfl
  | cons b rest ih =>
      have eight : (ofByte b).length = 8 := rfl
      rw [ofBytes_cons, List.length_append, ih, eight, List.length_cons]
      omega

theorem length_ofSymbols (symbols : List Symbol) :
    (ofSymbols symbols).length = 5 * symbols.length := by
  induction symbols with
  | nil => rfl
  | cons s rest ih =>
      have five : (ofSymbol s).length = 5 := rfl
      rw [ofSymbols_cons, List.length_append, ih, five, List.length_cons]
      omega

theorem length_toBytes (bits : Bits) : bits.toBytes.length = bits.length / 8 := by
  induction bits using toBytes.induct with
  | case1 b₇ b₆ b₅ b₄ b₃ b₂ b₁ b₀ rest ih =>
      simp only [toBytes, List.length_cons, ih]
      omega
  | case2 bits few =>
      match bits, few with
      | [], _ | [_], _ | [_, _], _ | [_, _, _], _ | [_, _, _, _], _ | [_, _, _, _, _], _
      | [_, _, _, _, _, _], _ | [_, _, _, _, _, _, _], _ => simp [toBytes]
      | _ :: _ :: _ :: _ :: _ :: _ :: _ :: _ :: _, few => exact (few _ _ _ _ _ _ _ _ _ rfl).elim

theorem length_toSymbols (bits : Bits) : bits.toSymbols.length = (bits.length + 4) / 5 := by
  induction bits using toSymbols.induct with
  | case1 => simp [toSymbols]
  | case2 b₄ b₃ b₂ b₁ b₀ rest ih =>
      simp only [toSymbols, List.length_cons, ih]
      omega
  | case3 bits nonempty few =>
      match bits, nonempty, few with
      | [], nonempty, _ => exact (nonempty rfl).elim
      | [_], _, _ | [_, _], _, _ | [_, _, _], _, _ | [_, _, _, _], _, _ => simp [toSymbols]
      | _ :: _ :: _ :: _ :: _ :: _, _, few => exact (few _ _ _ _ _ _ rfl).elim

theorem ofSymbol_symbol : ∀ b₄ b₃ b₂ b₁ b₀ : Bool,
    ofSymbol (symbol [b₄, b₃, b₂, b₁, b₀]) = [b₄, b₃, b₂, b₁, b₀] := by
  decide

/-- Symbols write the bits they were cut from, and fewer than five zeros. -/
theorem ofSymbols_toSymbols (bits : Bits) :
    ∃ zeros < 5, ofSymbols bits.toSymbols = bits ++ List.replicate zeros false := by
  induction bits using toSymbols.induct with
  | case1 => exact ⟨0, by decide, by simp [toSymbols, ofSymbols]⟩
  | case2 b₄ b₃ b₂ b₁ b₀ rest ih =>
      obtain ⟨zeros, few, carried⟩ := ih
      refine ⟨zeros, few, ?_⟩
      rw [toSymbols, ofSymbols_cons, ofSymbol_symbol, carried]
      rfl
  | case3 bits nonempty few =>
      match bits, nonempty, few with
      | [], nonempty, _ => exact (nonempty rfl).elim
      | [a], _, _ => exact ⟨4, by decide, ofSymbol_symbol a _ _ _ _⟩
      | [a, b], _, _ => exact ⟨3, by decide, ofSymbol_symbol a b _ _ _⟩
      | [a, b, c], _, _ => exact ⟨2, by decide, ofSymbol_symbol a b c _ _⟩
      | [a, b, c, d], _, _ => exact ⟨1, by decide, ofSymbol_symbol a b c d _⟩
      | _ :: _ :: _ :: _ :: _ :: _, _, few => exact (few _ _ _ _ _ _ rfl).elim

theorem ofByte_byte : ∀ b₇ b₆ b₅ b₄ b₃ b₂ b₁ b₀ : Bool,
    ofByte (byte [b₇, b₆, b₅, b₄, b₃, b₂, b₁, b₀]) = [b₇, b₆, b₅, b₄, b₃, b₂, b₁, b₀] := by
  decide

/-- Cutting into bytes loses only the bits after the last full byte. -/
theorem ofBytes_toBytes (bits : Bits) : ofBytes bits.toBytes ++ bits.afterBytes = bits := by
  induction bits using toBytes.induct with
  | case1 b₇ b₆ b₅ b₄ b₃ b₂ b₁ b₀ rest ih =>
      have later : afterBytes (b₇ :: b₆ :: b₅ :: b₄ :: b₃ :: b₂ :: b₁ :: b₀ :: rest) =
          afterBytes rest := by
        have more : 8 * ((rest.length + 8) / 8) = 8 * (rest.length / 8) + 8 := by omega
        simp only [afterBytes, List.length_cons, more, List.drop_succ_cons]
      rw [toBytes, ofBytes_cons, ofByte_byte, later, List.append_assoc, ih]
      rfl
  | case2 bits few =>
      have short : bits.length < 8 := by
        match bits, few with
        | [], _ | [_], _ | [_, _], _ | [_, _, _], _ | [_, _, _, _], _ | [_, _, _, _, _], _
        | [_, _, _, _, _, _], _ | [_, _, _, _, _, _, _], _ => simp
        | _ :: _ :: _ :: _ :: _ :: _ :: _ :: _ :: _, few => exact (few _ _ _ _ _ _ _ _ _ rfl).elim
      have none : toBytes bits = [] := by
        apply List.eq_nil_of_length_eq_zero
        rw [length_toBytes]
        omega
      rw [none, afterBytes, Nat.div_eq_of_lt short]
      rfl

theorem ofSymbols_injective {xs ys : List Symbol} (same : ofSymbols xs = ofSymbols ys) :
    xs = ys := by
  rw [← toSymbols_ofSymbols xs, same, toSymbols_ofSymbols]

theorem toBytes_append {padding : Bits} (short : padding.length < 8) (bytes : List UInt8) :
    (ofBytes bytes ++ padding).toBytes = bytes := by
  induction bytes with
  | nil =>
      have none : padding.toBytes.length = 0 := by
        rw [length_toBytes]
        omega
      exact List.eq_nil_of_length_eq_zero none
  | cons b rest ih =>
      have split : (ofBytes (b :: rest) ++ padding).toBytes =
          byte (ofByte b) :: (ofBytes rest ++ padding).toBytes := rfl
      rw [split, byte_ofByte, ih]

end Bits

/-- The symbols carry the bytes, and behind them fewer bits than one more byte has. -/
def Carries (symbols : List Symbol) (bytes : List UInt8) : Prop :=
  ∃ rest : Bits, rest.length < 8 ∧ Bits.ofSymbols symbols = Bits.ofBytes bytes ++ rest

/-- The symbols are the bytes cut anew, the last symbol filled with zeros. -/
def Regroups (symbols : List Symbol) (bytes : List UInt8) : Prop :=
  ∃ zeros < 5, Bits.ofSymbols symbols = Bits.ofBytes bytes ++ List.replicate zeros false

section Regrouping

variable {symbols : List Symbol} {bytes : List UInt8}

theorem carries_iff : Carries symbols bytes ↔ bytesOfSymbols symbols = bytes := by
  constructor
  · rintro ⟨rest, short, carried⟩
    rw [bytesOfSymbols, carried, Bits.toBytes_append short]
  · rintro rfl
    refine ⟨(Bits.ofSymbols symbols).afterBytes, ?_, (Bits.ofBytes_toBytes _).symm⟩
    rw [Bits.afterBytes, List.length_drop]
    omega

theorem regroups_iff : Regroups symbols bytes ↔ symbols = symbolsOfBytes bytes := by
  have whole : Regroups (symbolsOfBytes bytes) bytes :=
    Bits.ofSymbols_toSymbols (Bits.ofBytes bytes)
  constructor
  · rintro ⟨zeros, few, carried⟩
    obtain ⟨filled, fewer, written⟩ := whole
    -- Both fill the same bytes up to a multiple of five bits, with fewer than five zeros.
    have same : filled = zeros := by
      have lengths := congrArg List.length carried
      have lengths' := congrArg List.length written
      rw [Bits.length_ofSymbols, List.length_append, List.length_replicate] at lengths lengths'
      omega
    rw [same, ← carried] at written
    exact (Bits.ofSymbols_injective written).symm
  · rintro rfl
    exact whole

theorem Regroups.carries (regroups : Regroups symbols bytes) : Carries symbols bytes := by
  obtain ⟨zeros, few, carried⟩ := regroups
  refine ⟨_, ?_, carried⟩
  rw [List.length_replicate]
  omega

end Regrouping

theorem bytesOfSymbols_symbolsOfBytes (bytes : List UInt8) :
    bytesOfSymbols (symbolsOfBytes bytes) = bytes :=
  carries_iff.mp (regroups_iff.mpr rfl).carries

/-- Symbols that end in padding are the ones that carry their bytes. -/
theorem symbolsOfBytes_bytesOfSymbols {symbols : List Symbol} {zeros : Nat} (few : zeros < 5)
    (padding : (Bits.ofSymbols symbols).afterBytes = List.replicate zeros false) :
    symbolsOfBytes (bytesOfSymbols symbols) = symbols := by
  have whole := Bits.ofBytes_toBytes (Bits.ofSymbols symbols)
  rw [padding] at whole
  exact (regroups_iff.mp ⟨zeros, few, whole.symm⟩).symm

theorem afterBytes_symbolsOfBytes (bytes : List UInt8) :
    ∃ zeros < 5,
      (Bits.ofSymbols (symbolsOfBytes bytes)).afterBytes = List.replicate zeros false := by
  obtain ⟨zeros, few, carried⟩ := regroups_iff.mpr (rfl : symbolsOfBytes bytes = _)
  have whole := Bits.ofBytes_toBytes (Bits.ofSymbols (symbolsOfBytes bytes))
  have found : (Bits.ofSymbols (symbolsOfBytes bytes)).toBytes = bytes :=
    bytesOfSymbols_symbolsOfBytes bytes
  rw [found, carried, List.append_cancel_left_eq, ← carried] at whole
  exact ⟨zeros, few, whole⟩

theorem length_bytesOfSymbols (symbols : List Symbol) :
    (bytesOfSymbols symbols).length = 5 * symbols.length / 8 := by
  rw [bytesOfSymbols, Bits.length_toBytes, Bits.length_ofSymbols]

theorem length_symbolsOfBytes (bytes : List UInt8) :
    (symbolsOfBytes bytes).length = (8 * bytes.length + 4) / 5 := by
  rw [symbolsOfBytes, Bits.length_toSymbols, Bits.length_ofBytes]

end PaymentTarget
