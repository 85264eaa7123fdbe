import PaymentTarget.Proofs.Bits
import PaymentTarget.Proofs.Bech32.Word
import PaymentTarget.Proofs.Invoice.Amount
import PaymentTarget.Proofs.Text.Position
import PaymentTarget.Invoice.Basic

/-! # Invoices by positions

The reader of invoices as a machine goes about it: parts are cut out of the
entered text by their positions in bytes, elements are taken by their index, and
what was checked before is relied on. Each such step is a trap here if it goes
wrong. None does, whatever the text is, and what is read is the same.
-/

namespace PaymentTarget

/-- What must not happen where a reader relies on an earlier check. -/
inductive Trap where
  /-- A position outside of what is cut, or inside a character. -/
  | position
  /-- A difference below zero. -/
  | difference
  /-- A word without a separator. -/
  | separator
  /-- A character of a word that stands for no symbol. -/
  | symbol
  /-- A payee with another number of bytes than a node key. -/
  | payeeLength
  /-- A currency of no network. -/
  | currency
  deriving Repr, DecidableEq

/-- Why a reader stops. -/
inductive Stop where
  | trap (trap : Trap)
  | refused (failure : Failure)
  deriving Repr, DecidableEq

namespace Stop

variable {α : Type}

/-- The value that there must be. -/
def need (trap : Trap) : Option α → Except Stop α
  | some a => .ok a
  | none => .error (.trap trap)

/-- A difference that must not be below zero. -/
def difference (a b : Nat) : Except Stop Nat :=
  if b ≤ a then .ok (a - b) else .error (.trap .difference)

/-- The first `n` elements and the others, when there must be so many. -/
def cut (n : Nat) (xs : List α) : Except Stop (List α × List α) :=
  if n ≤ xs.length then .ok (xs.take n, xs.drop n) else .error (.trap .position)

theorem need_some (trap : Trap) (a : α) : need trap (some a) = .ok a :=
  rfl

theorem ok_bind {β : Type} (a : α) (f : α → Except Stop β) : (.ok a >>= f) = f a :=
  rfl

theorem difference_of_le {a b : Nat} (le : b ≤ a) : difference a b = .ok (a - b) :=
  if_pos le

theorem cut_of_le {n : Nat} {xs : List α} (le : n ≤ xs.length) :
    cut n xs = .ok (xs.take n, xs.drop n) :=
  if_pos le

/-- The outcome of a reader that has no traps. -/
abbrev lift (result : Except Failure α) : Except Stop α :=
  result.mapError refused

theorem lift_ne_trap (result : Except Failure α) (t : Trap) : lift result ≠ .error (.trap t) := by
  cases result <;> simp [Except.mapError]

end Stop

open Stop

/-- The amount without its multiplier letter, which is one byte at the end. -/
def Amount.splitByPositions (t : Text) : Except Stop (Text × Option Multiplier) :=
  match t.getLast?.bind Multiplier.ofChar? with
  | none => .ok (t, none)
  | some multiplier => do
      let stop ← difference t.size 1
      let digits ← need .position (t.slice? 0 stop)
      return (digits, some multiplier)

theorem Amount.splitByPositions_eq (t : Text) : splitByPositions t = .ok (split t) := by
  unfold splitByPositions split
  cases named : t.getLast?.bind Multiplier.ofChar? with
  | none => rfl
  | some multiplier =>
      obtain ⟨c, last, letter⟩ := Option.bind_eq_some_iff.mp named
      obtain ⟨front, rfl⟩ := List.getLast?_eq_some_iff.mp last
      have small := Text.isLower_iff.mp (isLower_of_multiplier letter)
      have sized : Text.size (front ++ [c]) = Text.size front + 1 := by
        rw [Text.size_append, Text.size_cons, Text.utf8Size_of_lt (by omega)]
        rfl
      have digits : Text.slice? 0 (Text.size front) (front ++ [c]) = some front :=
        Text.slice?_eq_some_iff.mpr ⟨[], [c], rfl, rfl, Nat.zero_add _⟩
      simp only [sized, difference_of_le (Nat.le_add_left 1 _), Nat.add_sub_cancel,
        List.dropLast_concat, digits, need_some, ok_bind]
      rfl

namespace InvoiceHrp

/-- The currencies in the order in which they are tried. -/
def currencies : List Text :=
  [['b', 'c', 'r', 't'], ['t', 'b', 's'], ['b', 'c'], ['t', 'b']]

def readByPositions (hrp : Text) : Except Stop (Network × Option Nat) :=
  match hrp with
  | 'l' :: 'n' :: rest =>
      match currencies.find? fun currency => currency.isPrefixOf rest with
      | none => .error (.refused (.unknownHrp hrp))
      | some currency => do
          let network ← need .currency (Network.ofCurrency? currency)
          let amount ← need .position (Text.slice? currency.size (Text.size rest) rest)
          if amount.isEmpty then return (network, none)
          else
            match Amount.read amount with
            | .error fault => .error (.refused (.amount fault amount))
            | .ok msat => return (network, some msat)
  | _ => .error (.refused (.invoice .missingStart))

theorem find?_currencies (rest : Text) :
    (currencies.find? fun currency => currency.isPrefixOf rest) =
      (currencyOrder.find? fun network => network.currency.isPrefixOf rest).map Network.currency := by
  have same : currencies = currencyOrder.map Network.currency := rfl
  rw [same, List.find?_map]
  rfl

theorem readByPositions_eq (hrp : Text) : readByPositions hrp = lift (read hrp) := by
  unfold readByPositions
  split
  next rest =>
    rw [find?_currencies, read]
    cases found : currencyOrder.find? fun network => network.currency.isPrefixOf rest with
    | none => rfl
    | some network =>
        have starts := List.find?_some found
        obtain ⟨amount, rfl⟩ := List.isPrefixOf_iff_prefix.mp starts
        have behind : Text.slice? network.currency.size (Text.size (network.currency ++ amount))
            (network.currency ++ amount) = some amount := by
          rw [Text.size_append]
          exact Text.slice?_eq_some_iff.mpr ⟨network.currency, [], by simp, rfl, rfl⟩
        simp only [Option.map_some, Network.ofCurrency?_currency, behind, List.drop_left,
          need_some, ok_bind]
        split
        next => rfl
        next => cases Amount.read amount <;> rfl
  next other =>
    rw [read]
    · rfl
    · exact other

end InvoiceHrp

namespace Field

/-- The first field and the symbols behind it. -/
def readByPositions (symbols : List Symbol) : Except Stop (Field × List Symbol) :=
  if symbols.length < 3 then .error (.refused (.invoice .truncatedField))
  else do
    let tag ← need .position symbols[0]?
    let high ← need .position symbols[1]?
    let low ← need .position symbols[2]?
    let (_, rest) ← cut 3 symbols
    let length := 32 * high.toNat + low.toNat
    if rest.length < length then .error (.refused (.invoice (.overrun tag)))
    else do
      let (payload, remaining) ← cut length rest
      return ({ tag, payload }, remaining)

theorem readByPositions_cons (tag high low : Symbol) (rest : List Symbol) :
    readByPositions (tag :: high :: low :: rest) =
      if rest.length < 32 * high.toNat + low.toNat then
        .error (.refused (.invoice (.overrun tag)))
      else
        .ok ({ tag, payload := rest.take (32 * high.toNat + low.toNat) },
          rest.drop (32 * high.toNat + low.toNat)) := by
  have long : ¬ (tag :: high :: low :: rest).length < 3 := by simp
  rw [readByPositions, if_neg long]
  simp only [List.getElem?_cons_zero, List.getElem?_cons_succ, need_some, ok_bind,
    cut_of_le (Nat.not_lt.mp long), List.drop_succ_cons, List.drop_zero]
  split
  next => rfl
  next inside =>
    rw [cut_of_le (Nat.not_lt.mp inside)]
    rfl

theorem length_lt_of_readByPositions {symbols remaining : List Symbol} {f : Field}
    (read : readByPositions symbols = .ok (f, remaining)) : remaining.length < symbols.length := by
  rcases symbols with _ | ⟨tag, _ | ⟨high, _ | ⟨low, rest⟩⟩⟩
  · cases read
  · cases read
  · cases read
  · rw [readByPositions_cons] at read
    split at read
    · cases read
    · obtain ⟨-, rfl⟩ := Prod.mk.inj (Except.ok.inj read)
      simp only [List.length_drop, List.length_cons]
      omega

end Field

/-- The symbols of a word are found in a text behind the last `1`, up to six bytes before the
end. -/
def Word.IsCutFrom (w : Word) (t : Text) : Prop :=
  ∃ separator part, t.findLast? '1' = some separator ∧ checksumLength ≤ t.size ∧
    t.slice? (separator + 1) (t.size - checksumLength) = some part ∧
    (∀ c ∈ part, c.toLower ∈ bech32Alphabet) ∧
    part.mapM (fun c => Symbol.ofChar? c.toLower) = some w.data

theorem Word.isCutFrom_of_read? {t : Text} {w : Word} (read : Word.read? t = some w)
    (long : checksumLength ≤ w.symbols.length) : w.IsCutFrom t := by
  obtain ⟨-, -, written⟩ := read?_eq_some_iff.mp read
  obtain ⟨before, after, rfl, absent, hrp⟩ := Text.lower_eq_append_separator_iff.mp
    ⟨_, written, Symbol.separator_not_mem w.symbols⟩
  have spelled : after.lower = w.symbols.map Symbol.toChar := by
    rw [Text.lower_append, write, ← hrp] at written
    exact (List.cons.inj (List.append_cancel_left written)).2
  have sized := Symbol.size_of_lower spelled
  have part : Text.lower (after.take (w.symbols.length - checksumLength)) =
      w.data.map Symbol.toChar := by
    rw [Text.lower_take, spelled, ← List.map_take]
    rfl
  have partSized := Symbol.size_of_lower part
  have whole : Text.size (before ++ '1' :: after) = before.size + 1 + w.symbols.length := by
    rw [Text.size_append, Text.size_cons, sized]
    exact (Nat.add_assoc _ _ _).symm
  have cut : Text.slice? (before.size + 1) ((before ++ '1' :: after).size - checksumLength)
      (before ++ '1' :: after) = some (after.take (w.symbols.length - checksumLength)) := by
    refine Text.slice?_eq_some_iff.mpr ⟨before ++ ['1'],
      after.drop (w.symbols.length - checksumLength), by simp, Text.size_append _ _, ?_⟩
    rw [Text.size_append, partSized, whole, data, List.length_take]
    show before.size + 1 + _ = _
    omega
  refine ⟨before.size, _, Text.findLast?_append before absent, by omega, cut, ?_, ?_⟩
  · intro c member
    have small : c.toLower ∈ w.data.map Symbol.toChar := part ▸ List.mem_map_of_mem member
    obtain ⟨s, -, same⟩ := List.mem_map.mp small
    rw [← same, Symbol.toChar]
    exact List.get_mem _ _
  · simp only [Symbol.ofChar?_toLower]
    exact Symbol.mapM_ofChar?_eq_some_iff.mpr part

namespace Invoice

namespace Details

/-- The details after one more field. The bytes of a payee must be those of a node key. -/
def addByPositions (d : Details) (f : Field) : Except Stop Details :=
  if f.tag = Field.payeeTag ∧ f.payload.length = payeeLength ∧
      (bytesOfSymbols f.payload).length ≠ nodeKeyLength then
    .error (.trap .payeeLength)
  else lift (d.add f)

/-- The details after the fields of a region. -/
def readByPositions (d : Details) (symbols : List Symbol) : Except Stop Details :=
  if symbols.isEmpty then .ok d
  else
    match _read : Field.readByPositions symbols with
    | .error stop => .error stop
    | .ok (f, remaining) => do
        let d ← d.addByPositions f
        d.readByPositions remaining
termination_by symbols.length
decreasing_by exact Field.length_lt_of_readByPositions _read

theorem addByPositions_eq (d : Details) (f : Field) : d.addByPositions f = lift (d.add f) := by
  apply if_neg
  rintro ⟨-, payee, other⟩
  rw [length_bytesOfSymbols, payee] at other
  exact other rfl

/-- The details after the fields of a region, and before what is wrong behind them. -/
def addSymbols (d : Details) (symbols : List Symbol) : Except Failure Details :=
  match (Field.split symbols).1.foldlM add d with
  | .error failure => .error failure
  | .ok details =>
      match (Field.split symbols).2 with
      | some fault => .error (.invoice fault)
      | none => .ok details

theorem readByPositions_of_error {d : Details} {symbols : List Symbol} {stop : Stop}
    (more : symbols.isEmpty = false) (read : Field.readByPositions symbols = .error stop) :
    d.readByPositions symbols = .error stop := by
  rw [Details.readByPositions, more]
  simp only [Bool.false_eq_true, if_false]
  split
  next read' => exact congrArg Except.error (Except.error.inj (read'.symm.trans read))
  next read' => cases read'.symm.trans read

theorem readByPositions_of_ok {d : Details} {symbols remaining : List Symbol} {f : Field}
    (read : Field.readByPositions symbols = .ok (f, remaining)) :
    d.readByPositions symbols = d.addByPositions f >>= fun d => d.readByPositions remaining := by
  have shorter := Field.length_lt_of_readByPositions read
  have more : symbols.isEmpty = false := by
    rw [List.isEmpty_eq_false_iff_exists_mem]
    exact List.exists_mem_of_length_pos (by omega)
  rw [Details.readByPositions, more]
  simp only [Bool.false_eq_true, if_false]
  split
  next read' => cases read'.symm.trans read
  next read' =>
    obtain ⟨rfl, rfl⟩ := Prod.mk.inj (Except.ok.inj (read'.symm.trans read))
    rfl

theorem readByPositions_eq (d : Details) (symbols : List Symbol) :
    d.readByPositions symbols = lift (d.addSymbols symbols) := by
  induction symbols using Field.split.induct generalizing d with
  | case1 =>
      rw [readByPositions, addSymbols, Field.split]
      rfl
  | case2 tag high low rest length overrun =>
      have stopped : Field.readByPositions (tag :: high :: low :: rest) =
          .error (.refused (.invoice (.overrun tag))) := by
        rw [Field.readByPositions_cons, if_pos overrun]
      rw [readByPositions_of_error rfl stopped, addSymbols, Field.split, if_pos overrun]
      rfl
  | case3 tag high low rest length inside fields fault later ih =>
      have read := Field.readByPositions_cons tag high low rest
      rw [if_neg inside] at read
      rw [readByPositions_of_ok read, addByPositions_eq, addSymbols, Field.split, if_neg inside]
      simp only [List.foldlM_cons]
      cases d.add { tag, payload := rest.take length } with
      | error failure => rfl
      | ok d' => exact ih d'
  | case4 symbols some short =>
      have stopped : Field.readByPositions symbols =
          .error (.refused (.invoice .truncatedField)) := by
        rcases symbols with _ | ⟨tag, _ | ⟨high, _ | ⟨low, rest⟩⟩⟩
        · exact absurd rfl some
        · rfl
        · rfl
        · exact absurd rfl (short tag high low rest)
      have more : symbols.isEmpty = false := List.isEmpty_eq_false_iff.mpr some
      rw [readByPositions_of_error more stopped, addSymbols, Field.split]
      · rfl
      · exact some
      · exact short

end Details

def ofDataByPositions (network : Network) (amountMsat : Option Nat) (data : List Symbol) :
    Except Stop Invoice :=
  if data.length < timestampLength + signatureLength then
    .error (.refused (.invoice (.tooShort data.length)))
  else do
    let (timestamp, rest) ← cut timestampLength data
    let behind ← difference data.length timestampLength
    let fieldsLength ← difference behind signatureLength
    let (fields, signature) ← cut fieldsLength rest
    if !hasRecoveryId signature then .error (.refused (.invoice .recoveryId))
    else do
      let details ← Details.readByPositions {} fields
      match details.paymentHash with
      | none => .error (.refused (.invoice .missingPaymentHash))
      | some paymentHash =>
          return {
            network
            amountMsat
            timestamp := numberOfSymbols timestamp
            paymentHash
            description := details.description
            expirySecs := details.expirySecs.getD defaultExpirySecs
            payee := details.payee }

theorem ofDataByPositions_eq (network : Network) (amountMsat : Option Nat) (data : List Symbol) :
    ofDataByPositions network amountMsat data = lift (ofData network amountMsat data) := by
  unfold ofDataByPositions ofData
  split
  next => rfl
  next long =>
    have front : timestampLength ≤ data.length := by omega
    have behind : signatureLength ≤ data.length - timestampLength := by omega
    have inside : data.length - timestampLength - signatureLength ≤
        (data.drop timestampLength).length := by
      rw [List.length_drop]
      omega
    simp only [cut_of_le front, difference_of_le front, difference_of_le behind, cut_of_le inside,
      ok_bind, List.drop_drop]
    generalize (data.drop timestampLength).take (data.length - timestampLength - signatureLength) =
      fields
    generalize data.drop (timestampLength + (data.length - timestampLength - signatureLength)) =
      signature
    cases hasRecoveryId signature with
    | false => rfl
    | true =>
        have read : Details.readByPositions {} fields = lift (Details.ofSymbols fields) :=
          Details.readByPositions_eq {} fields
        rw [read]
        cases Details.ofSymbols fields with
        | error failure => rfl
        | ok details => rcases details with ⟨_ | hash, description, expirySecs, payee⟩ <;> rfl

/-- Reads an invoice. Once the checksum is found right, the symbols are taken from the entered
text itself, from the last `1` to six bytes before the end. -/
def readByPositions (t : Text) : Except Stop Invoice :=
  if t.isEmpty then .error (.refused .empty)
  else if !(t.slice? 0 InvoiceHrp.start.size).any (Text.sameLetters InvoiceHrp.start) then
    .error (.refused (.invoice .missingStart))
  else
    match Word.read? t with
    | none => .error (.refused (.bech32 .malformed))
    | some w =>
        if Text.maxSize < t.size || !w.checks .bech32 then .error (.refused (.bech32 .checksum))
        else do
          let (network, amountMsat) ← InvoiceHrp.readByPositions w.hrp
          let separator ← need .separator (t.findLast? '1')
          let stop ← difference t.size checksumLength
          let part ← need .position (t.slice? (separator + 1) stop)
          let data ← need .symbol (part.mapM fun c => Symbol.ofChar? c.toLower)
          ofDataByPositions network amountMsat data

/-- The first two bytes say `ln` if the first two characters do. -/
theorem any_slice?_start (t : Text) :
    (t.slice? 0 InvoiceHrp.start.size).any (Text.sameLetters InvoiceHrp.start) =
      decide (Text.lower (t.take 2) = InvoiceHrp.start) := by
  rw [Bool.eq_iff_iff, Option.any_eq_true, decide_eq_true_iff]
  constructor
  · rintro ⟨part, cut, same⟩
    obtain ⟨before, after, rfl, empty, -⟩ := Text.slice?_eq_some_iff.mp cut
    have letters : part.lower = InvoiceHrp.start := (beq_iff_eq.mp same).symm
    have length : part.length = 2 := by
      rw [← List.length_map, ← Text.lower, letters]
      rfl
    rw [Text.size_eq_zero_iff.mp empty, List.nil_append, List.take_left' length, letters]
  · intro letters
    have sized : Text.size (t.take 2) = InvoiceHrp.start.size := by
      rw [← Text.size_lower, letters]
    have cut : t.slice? 0 InvoiceHrp.start.size = some (t.take 2) :=
      Text.slice?_eq_some_iff.mpr ⟨[], t.drop 2, by simp, rfl, by rw [sized]; exact Nat.zero_add _⟩
    refine ⟨_, cut, ?_⟩
    rw [Text.sameLetters, letters]
    rfl

theorem readByPositions_eq (t : Text) : readByPositions t = lift (Invoice.read t) := by
  unfold readByPositions Invoice.read
  split
  next => rfl
  next =>
    by_cases letters : Text.lower (t.take 2) = InvoiceHrp.start
    · simp only [any_slice?_start, letters, decide_true, Bool.not_true, Bool.false_eq_true,
        if_false, ne_eq, not_true_eq_false]
      cases word : Word.read? t with
      | none => rfl
      | some w =>
          dsimp only
          split
          next => rfl
          next checked =>
            have valid : w.checks .bech32 = true := by
              simp only [Bool.or_eq_true, not_or, Bool.not_eq_true', Bool.not_eq_false] at checked
              exact checked.2
            obtain ⟨separator, part, last, long, cut, -, read⟩ :=
              Word.isCutFrom_of_read? word (Word.le_length_of_checks valid)
            rw [ofWord, InvoiceHrp.readByPositions_eq]
            cases InvoiceHrp.read w.hrp with
            | error failure => rfl
            | ok price =>
                obtain ⟨network, amountMsat⟩ := price
                simp only [ok_bind, last, need_some, difference_of_le long, cut, read]
                exact ofDataByPositions_eq network amountMsat w.data
    · simp only [any_slice?_start, letters, decide_false, Bool.not_false, if_true, ne_eq,
        not_false_eq_true]
      rfl

end Invoice

end PaymentTarget
