import PaymentTarget.Address.Segwit
import PaymentTarget.Proofs.Bech32.Hrp
import PaymentTarget.Proofs.Bech32.Word
import PaymentTarget.Proofs.Bits

/-! # Segwit addresses are the texts of programs

A program is written in one way only: its version settles the variant of the
checksum, its bytes settle the symbols that carry them, and both settle the
checksum. The reader therefore accepts the small form of such a text, the
capitals of it, and nothing else. What an address pays to and the network it is
recorded for are read off the parts of its program.
-/

namespace PaymentTarget

namespace SegwitProgram

/-- The human-readable parts of addresses, and what is recorded for them. -/
inductive Names : Text → Network → Prop
  | bitcoin : Names ['b', 'c'] .bitcoin
  | testnet : Names ['t', 'b'] .testnet
  | regtest : Names ['b', 'c', 'r', 't'] .regtest

/-- The versions and lengths of programs, and what is paid to with them. -/
inductive Pays : Symbol → Nat → AddressKind → Prop
  | keyHash : Pays 0#5 20 .p2wpkh
  | scriptHash : Pays 0#5 32 .p2wsh
  | taproot : Pays 1#5 32 .p2tr
  | unknown {version : Symbol} {length : Nat} :
      version ≠ 0#5 → version.toNat ≤ 16 → 2 ≤ length → length ≤ 40 →
        ¬(version = 1#5 ∧ length = 32) →
          Pays version length (.witnessUnknown (UInt8.ofNat version.toNat))

/-- The program is one that the address stands for. -/
structure IsOf (p : SegwitProgram) (a : Address) : Prop where
  network : Names p.hrp a.network
  kind : Pays p.version p.program.length a.kind

/-- The residue that a version asks for: one constant for version 0, another for all later
    versions. -/
inductive Leaves : Symbol → Residue → Prop
  | original : Leaves 0#5 1#30
  | modified {version : Symbol} : version ≠ 0#5 → Leaves version 0x2bc830a3#30

/-- The text in small letters of a program, whose last six symbols complete the others to the
    residue of the version. -/
inductive Spells (p : SegwitProgram) : Text → Prop
  | intro {payload checksum : List Symbol} :
      Regroups payload p.program → checksum.length = 6 →
        Leaves p.version
          (Residue.ofSymbols (Hrp.expand p.hrp ++ (p.version :: payload) ++ checksum)) →
          Spells p (p.hrp ++ '1' :: (p.version :: payload ++ checksum).map Symbol.toChar)

/-- A version and a length that the format allows. -/
structure Allowed (version : Symbol) (length : Nat) : Prop where
  known : version.toNat ≤ 16
  fits : isLength version length = true

/-- The word that carries a program. -/
def word (p : SegwitProgram) : Word :=
  Word.withChecksum (variant p.version) p.hrp (p.version :: symbolsOfBytes p.program)

theorem leaves_iff {version : Symbol} {residue : Residue} :
    Leaves version residue ↔ residue = (variant version).residue := by
  constructor
  · intro leaves
    cases leaves with
    | original => rfl
    | modified later => rw [variant, if_neg later, ChecksumVariant.residue]
  · rintro rfl
    by_cases first : version = 0#5
    · rw [first]
      exact .original
    · rw [variant, if_neg first]
      exact .modified first

/-- A program has one text in small letters. -/
theorem spells_iff {p : SegwitProgram} {t : Text} : p.Spells t ↔ t = p.write := by
  constructor
  · intro spells
    obtain ⟨regroups, six, leaves⟩ := spells
    obtain rfl := regroups_iff.mp regroups
    rw [leaves_iff, ChecksumVariant.residue_append_iff _ _ six] at leaves
    rw [leaves]
    rfl
  · rintro rfl
    have leaves := leaves_iff.mpr <| ((variant p.version).residue_append_iff
      (Hrp.expand p.hrp ++ p.version :: symbolsOfBytes p.program) rfl).mpr rfl
    exact .intro (regroups_iff.mpr rfl) rfl leaves

theorem isPadding_iff {bits : Bits} :
    isPadding bits = true ↔ ∃ zeros < 5, bits = List.replicate zeros false := by
  rw [isPadding, Bool.and_eq_true, decide_eq_true_iff, List.all_eq_true]
  constructor
  · rintro ⟨short, clear⟩
    refine ⟨bits.length, by omega, ?_⟩
    apply List.eq_replicate_of_mem
    intro b member
    simpa using clear b member
  · rintro ⟨zeros, few, rfl⟩
    refine ⟨?_, ?_⟩
    · rw [List.length_replicate]
      omega
    · intro b member
      rw [List.eq_of_mem_replicate member]
      rfl

theorem ofWord?_word {p : SegwitProgram} (allowed : Allowed p.version p.program.length) :
    ofWord? p.word = some p := by
  obtain ⟨zeros, few, padding⟩ := afterBytes_symbolsOfBytes p.program
  have padded := isPadding_iff.mpr ⟨zeros, few, padding⟩
  have checked : p.word.checks (variant p.version) = true := Word.checks_withChecksum _ _ _
  have data : p.word.data = p.version :: symbolsOfBytes p.program := Word.data_withChecksum _ _ _
  have symbols : p.word.symbols = p.version :: (symbolsOfBytes p.program ++
      (variant p.version).checksum (Hrp.expand p.hrp ++ p.version :: symbolsOfBytes p.program)) :=
    rfl
  simp only [ofWord?, symbols, data, List.drop_one, List.tail_cons, bytesOfSymbols_symbolsOfBytes,
    checked, padded, allowed.known, allowed.fits, decide_true, Bool.and_self, if_true]
  rfl

theorem word_of_ofWord? {w : Word} {p : SegwitProgram} (carried : ofWord? w = some p) :
    Allowed p.version p.program.length ∧ w = p.word := by
  unfold ofWord? at carried
  split at carried
  · cases carried
  next version rest symbols =>
    simp only at carried
    split at carried
    next sound =>
      rw [← Option.some.inj carried]
      simp only [Bool.and_eq_true, decide_eq_true_eq] at sound
      obtain ⟨⟨⟨bound, checked⟩, padded⟩, length⟩ := sound
      refine ⟨⟨bound, length⟩, ?_⟩
      obtain ⟨zeros, few, padding⟩ := isPadding_iff.mp padded
      have body := symbolsOfBytes_bytesOfSymbols few padding
      have whole := Word.checks_iff.mp checked
      -- Without a symbol for the version there would be no program.
      have opening : w.data = version :: w.data.drop 1 := by
        cases data : w.data with
        | nil =>
            rw [data] at length
            simp [isLength, bytesOfSymbols, Bits.ofSymbols, Bits.toBytes] at length
        | cons first more =>
            have before : w.symbols.take (w.symbols.length - checksumLength) = first :: more := data
            rw [symbols] at before
            cases count : (version :: rest).length - checksumLength with
            | zero =>
                rw [count] at before
                cases before
            | succ n =>
                rw [count, List.take_succ_cons, List.cons.injEq] at before
                rw [before.1]
                rfl
      rw [opening] at whole
      simp only [word, body]
      exact whole
    · cases carried

theorem ofWord?_eq_some_iff {w : Word} {p : SegwitProgram} :
    ofWord? w = some p ↔ Allowed p.version p.program.length ∧ w = p.word := by
  constructor
  · exact word_of_ofWord?
  · rintro ⟨allowed, rfl⟩
    exact ofWord?_word allowed

theorem word_of_read? {t : Text} {p : SegwitProgram} (read : read? t = some p) :
    Word.read? t = some p.word := by
  obtain ⟨w, spelled, carried⟩ := Option.bind_eq_some_iff.mp read
  rw [spelled, (word_of_ofWord? carried).2]

theorem read?_eq_some_iff {t : Text} {p : SegwitProgram} :
    read? t = some p ↔
      Allowed p.version p.program.length ∧ Hrp.fault? p.hrp = none ∧ t.isMixedCase = false ∧
        t.lower = p.write := by
  rw [read?, Option.bind_eq_some_iff]
  constructor
  · rintro ⟨w, spelled, carried⟩
    obtain ⟨allowed, rfl⟩ := ofWord?_eq_some_iff.mp carried
    obtain ⟨single, sound, written⟩ := Word.read?_eq_some_iff.mp spelled
    exact ⟨allowed, sound, single, written⟩
  · rintro ⟨allowed, sound, single, written⟩
    exact ⟨p.word, Word.read?_eq_some_iff.mpr ⟨single, sound, written⟩, ofWord?_word allowed⟩

theorem Pays.allowed {version : Symbol} {length : Nat} {kind : AddressKind}
    (pays : Pays version length kind) : Allowed version length := by
  cases pays with
  | keyHash => exact ⟨by decide, by decide⟩
  | scriptHash => exact ⟨by decide, by decide⟩
  | taproot => exact ⟨by decide, by decide⟩
  | unknown nonzero known least most _ =>
      exact ⟨known, by simp [isLength, least, most, nonzero]⟩

theorem Pays.isBase58 {version : Symbol} {length : Nat} {kind : AddressKind}
    (pays : Pays version length kind) : kind.isBase58 = false := by
  cases pays <;> rfl

theorem ofWitness?_eq_some_iff {version : Symbol} {length : Nat} {kind : AddressKind}
    (allowed : Allowed version length) :
    AddressKind.ofWitness? version length = some kind ↔ Pays version length kind := by
  obtain ⟨known, fits⟩ := allowed
  simp only [isLength, Bool.and_eq_true, Bool.or_eq_true, decide_eq_true_eq, bne_iff_ne,
    beq_iff_eq] at fits
  obtain ⟨⟨least, most⟩, fits⟩ := fits
  unfold AddressKind.ofWitness?
  constructor
  · intro paid
    split at paid
    next zero =>
      subst zero
      split at paid
      next key =>
        rw [key, ← Option.some.inj paid]
        exact .keyHash
      · split at paid
        next script =>
          rw [script, ← Option.some.inj paid]
          exact .scriptHash
        · cases paid
    next nonzero =>
      split at paid
      next taproot =>
        obtain ⟨rfl, rfl⟩ := taproot
        rw [← Option.some.inj paid]
        exact .taproot
      next unassigned =>
        rw [← Option.some.inj paid]
        exact .unknown nonzero known least most unassigned
  · intro pays
    cases pays with
    | keyHash => rfl
    | scriptHash => rfl
    | taproot => rfl
    | unknown nonzero _ _ _ unassigned => rw [if_neg nonzero, if_neg unassigned]

theorem ofSegwitHrp?_eq_some_iff {hrp : Text} {network : Network} :
    Network.ofSegwitHrp? hrp = some network ↔ Names hrp network := by
  constructor
  · intro known
    have same := List.find?_some known
    obtain rfl : network.segwitHrp = hrp := eq_of_beq same
    have listed := List.mem_of_find?_eq_some known
    simp only [List.mem_cons, List.not_mem_nil, or_false] at listed
    rcases listed with rfl | rfl | rfl
    · exact .bitcoin
    · exact .testnet
    · exact .regtest
  · intro names
    cases names <;> decide

section Named

variable {hrp : Text} {network : Network}

theorem Names.fault? (names : Names hrp network) : Hrp.fault? hrp = none := by
  cases names <;> decide

theorem Names.lower (names : Names hrp network) : hrp.lower = hrp := by
  cases names <;> decide

theorem Names.eq_segwitHrp (names : Names hrp network) : hrp = network.segwitHrp := by
  cases names <;> rfl

theorem Names.size_le (names : Names hrp network) : hrp.size ≤ 4 := by
  cases names <;> decide

theorem Names.ne_signet (names : Names hrp network) : network ≠ .signet := by
  cases names <;> decide

end Named

theorem length_symbols_word (p : SegwitProgram) :
    p.word.symbols.length = 1 + (8 * p.program.length + 4) / 5 + checksumLength := by
  simp only [word, Word.withChecksum, List.length_append, List.length_cons,
    length_symbolsOfBytes, Word.length_checksum]
  omega

/-- No program is so long that its text would not be looked at. -/
theorem size_write_le {p : SegwitProgram} {a : Address} (isOf : p.IsOf a) :
    p.write.size ≤ maxSegwitSize := by
  have name := isOf.network.size_le
  have length := isOf.kind.allowed.fits
  have whole : p.write.size = p.hrp.size + 1 + p.word.symbols.length := Word.size_write p.word
  simp only [isLength, Bool.and_eq_true, decide_eq_true_eq] at length
  rw [whole, p.length_symbols_word, maxSegwitSize, checksumLength]
  omega

theorem lower_write {p : SegwitProgram} {a : Address} (isOf : p.IsOf a) :
    p.write.lower = p.write :=
  Word.lower_write (w := p.word) isOf.network.lower

theorem read?_of_isOf {p : SegwitProgram} {a : Address} (isOf : p.IsOf a) {t : Text} :
    read? t = some p ↔ t = p.write ∨ t = p.write.upper := by
  rw [read?_eq_some_iff, ← Text.singleCase_iff (lower_write isOf)]
  constructor
  · rintro ⟨-, -, spelled⟩
    exact spelled
  · intro spelled
    exact ⟨isOf.kind.allowed, isOf.network.fault?, spelled⟩

end SegwitProgram

namespace Address

open SegwitProgram

theorem exists_program_of_readSegwit {t : Text} {a : Address} (read : readSegwit t = .ok a) :
    ∃ p : SegwitProgram, p.IsOf a ∧ SegwitProgram.read? t = some p := by
  unfold readSegwit at read
  split at read
  · cases read
  · split at read
    · cases read
    next p program =>
      split at read
      · cases read
      next network known =>
        split at read
        · cases read
        next kind paid =>
          rw [← Except.ok.inj read]
          obtain ⟨allowed, -⟩ := SegwitProgram.read?_eq_some_iff.mp program
          have names := ofSegwitHrp?_eq_some_iff.mp known
          have pays := (ofWitness?_eq_some_iff allowed).mp paid
          exact ⟨p, ⟨names, pays⟩, program⟩

theorem readSegwit_eq_ok_iff {t : Text} {a : Address} :
    readSegwit t = .ok a ↔ ∃ p : SegwitProgram, p.IsOf a ∧ SegwitProgram.read? t = some p := by
  constructor
  · exact exists_program_of_readSegwit
  · rintro ⟨p, isOf, program⟩
    obtain ⟨allowed, -, -, written⟩ := SegwitProgram.read?_eq_some_iff.mp program
    have short : t.size ≤ maxSegwitSize := by
      rw [← Text.size_lower, written]
      exact size_write_le isOf
    have known := ofSegwitHrp?_eq_some_iff.mpr isOf.network
    have paid := (ofWitness?_eq_some_iff allowed).mpr isOf.kind
    rw [readSegwit, if_neg (Nat.not_lt.mpr short), program]
    simp only [known, paid]

/-- The human-readable part of an accepted text is that of the recorded network. -/
theorem lower_of_readSegwit {t : Text} {a : Address} (read : readSegwit t = .ok a) :
    ∃ rest, t.lower = a.network.segwitHrp ++ '1' :: rest ∧ '1' ∉ rest := by
  obtain ⟨p, isOf, program⟩ := exists_program_of_readSegwit read
  obtain ⟨-, -, -, written⟩ := SegwitProgram.read?_eq_some_iff.mp program
  have spelled : p.write = p.hrp ++ '1' :: p.word.symbols.map Symbol.toChar := rfl
  rw [spelled, isOf.network.eq_segwitHrp] at written
  exact ⟨_, written, Symbol.separator_not_mem _⟩

/-- Segwit addresses are the texts of programs in small letters or in capitals, and every program
    has one text in small letters. -/
theorem readSegwit_iff_spells :
    (∀ t a, readSegwit t = .ok a ↔
        ∃ (p : SegwitProgram) (small : Text), p.IsOf a ∧ p.Spells small ∧
          (t = small ∨ t = small.map Char.toUpper)) ∧
      (∀ (p : SegwitProgram) (a : Address), p.IsOf a →
        (∃! t : Text, p.Spells t) ∧
          ∀ t : Text, p.Spells t ↔
            t.lower = t ∧ readSegwit t = .ok a ∧ SegwitProgram.read? t = some p) ∧
      ∀ t a, readSegwit t = .ok a → a.network ≠ .signet := by
  refine ⟨?_, ?_, ?_⟩
  · intro t a
    rw [readSegwit_eq_ok_iff]
    constructor
    · rintro ⟨p, isOf, program⟩
      exact ⟨p, p.write, isOf, spells_iff.mpr rfl, (read?_of_isOf isOf).mp program⟩
    · rintro ⟨p, small, isOf, spells, spelled⟩
      obtain rfl := spells_iff.mp spells
      exact ⟨p, isOf, (read?_of_isOf isOf).mpr spelled⟩
  · intro p a isOf
    refine ⟨⟨p.write, spells_iff.mpr rfl, fun _ => spells_iff.mp⟩, ?_⟩
    intro t
    rw [spells_iff]
    constructor
    · rintro rfl
      have program : SegwitProgram.read? p.write = some p := (read?_of_isOf isOf).mpr (.inl rfl)
      exact ⟨lower_write isOf, readSegwit_eq_ok_iff.mpr ⟨p, isOf, program⟩, program⟩
    · rintro ⟨small, -, program⟩
      obtain ⟨-, -, -, written⟩ := SegwitProgram.read?_eq_some_iff.mp program
      rw [← small, written]
  · intro t a read
    obtain ⟨p, isOf, -⟩ := exists_program_of_readSegwit read
    exact isOf.network.ne_signet

/-- Addresses of every kind and network, two of them in capitals: the first two have the checksum
    of version 0, the others that of later versions. -/
theorem readSegwit_iff_spells_of_each :
    let keyHash : SegwitProgram := ⟨['b', 'c'], 0#5,
      [0x75, 0x1e, 0x76, 0xe8, 0x19, 0x91, 0x96, 0xd4, 0x54, 0x94, 0x1c, 0x45, 0xd1, 0xb3, 0xa3,
        0x23, 0xf1, 0x43, 0x3b, 0xd6]⟩
    let scriptHash : SegwitProgram := ⟨['t', 'b'], 0#5,
      [0x18, 0x63, 0x14, 0x3c, 0x14, 0xc5, 0x16, 0x68, 0x04, 0xbd, 0x19, 0x20, 0x33, 0x56, 0xda,
        0x13, 0x6c, 0x98, 0x56, 0x78, 0xcd, 0x4d, 0x27, 0xa1, 0xb8, 0xc6, 0x32, 0x96, 0x04, 0x90,
        0x32, 0x62]⟩
    let taproot : SegwitProgram := ⟨['b', 'c', 'r', 't'], 1#5,
      [0xab, 0xa6, 0x77, 0xf0, 0x7b, 0x1c, 0x62, 0xb8, 0x19, 0x4d, 0x8a, 0x7e, 0xa9, 0x4f, 0x14,
        0xe4, 0x3d, 0x8f, 0xb8, 0xef, 0xbe, 0x9f, 0x59, 0xce, 0xb1, 0x1c, 0xd1, 0x26, 0xeb, 0x69,
        0x19, 0x37]⟩
    let unassigned : SegwitProgram := ⟨['b', 'c'], 16#5, [0x75, 0x1e]⟩
    (keyHash.Spells "bc1qw508d6qejxtdg4y5r3zarvary0c5xw7kv8f3t4".toList ∧
        readSegwit "BC1QW508D6QEJXTDG4Y5R3ZARVARY0C5XW7KV8F3T4".toList =
          .ok ⟨.bitcoin, .p2wpkh⟩) ∧
      (scriptHash.Spells
          "tb1qrp33g0q5c5txsp9arysrx4k6zdkfs4nce4xj0gdcccefvpysxf3q0sl5k7".toList ∧
        readSegwit "tb1qrp33g0q5c5txsp9arysrx4k6zdkfs4nce4xj0gdcccefvpysxf3q0sl5k7".toList =
          .ok ⟨.testnet, .p2wsh⟩) ∧
      (taproot.Spells
          "bcrt1p4wn80urmr33tsx2d3fl2jnc5us7clw80h604nn43rngjd6mfrymsumysdw".toList ∧
        readSegwit "bcrt1p4wn80urmr33tsx2d3fl2jnc5us7clw80h604nn43rngjd6mfrymsumysdw".toList =
          .ok ⟨.regtest, .p2tr⟩) ∧
      unassigned.IsOf ⟨.bitcoin, .witnessUnknown 16⟩ ∧
        unassigned.Spells "bc1sw50qgdz25j".toList ∧
        readSegwit "BC1SW50QGDZ25J".toList = .ok ⟨.bitcoin, .witnessUnknown 16⟩ ∧
        (∃! t : Text, unassigned.Spells t) := by
  intro keyHash scriptHash taproot unassigned
  obtain ⟨accepted, unique, -⟩ := readSegwit_iff_spells
  have keyHashSpells : keyHash.Spells "bc1qw508d6qejxtdg4y5r3zarvary0c5xw7kv8f3t4".toList :=
    spells_iff.mpr (by decide +kernel)
  have scriptHashSpells : scriptHash.Spells
      "tb1qrp33g0q5c5txsp9arysrx4k6zdkfs4nce4xj0gdcccefvpysxf3q0sl5k7".toList :=
    spells_iff.mpr (by decide +kernel)
  have taprootSpells : taproot.Spells
      "bcrt1p4wn80urmr33tsx2d3fl2jnc5us7clw80h604nn43rngjd6mfrymsumysdw".toList :=
    spells_iff.mpr (by decide +kernel)
  have unassignedSpells : unassigned.Spells "bc1sw50qgdz25j".toList :=
    spells_iff.mpr (by decide +kernel)
  have unassignedIsOf : unassigned.IsOf ⟨.bitcoin, .witnessUnknown 16⟩ :=
    ⟨.bitcoin, .unknown (by decide) (by decide) (by decide) (by decide) (by decide)⟩
  refine ⟨⟨keyHashSpells, ?_⟩, ⟨scriptHashSpells, ?_⟩, ⟨taprootSpells, ?_⟩, unassignedIsOf,
    unassignedSpells, ?_, (unique _ _ unassignedIsOf).1⟩
  · have capitals : "BC1QW508D6QEJXTDG4Y5R3ZARVARY0C5XW7KV8F3T4".toList =
        "bc1qw508d6qejxtdg4y5r3zarvary0c5xw7kv8f3t4".toList.map Char.toUpper := by
      decide +kernel
    exact (accepted _ _).mpr ⟨_, _, ⟨.bitcoin, .keyHash⟩, keyHashSpells, .inr capitals⟩
  · exact (accepted _ _).mpr ⟨_, _, ⟨.testnet, .scriptHash⟩, scriptHashSpells, .inl rfl⟩
  · exact (accepted _ _).mpr ⟨_, _, ⟨.regtest, .taproot⟩, taprootSpells, .inl rfl⟩
  · have capitals : "BC1SW50QGDZ25J".toList = "bc1sw50qgdz25j".toList.map Char.toUpper := by
      decide +kernel
    exact (accepted _ _).mpr ⟨_, _, unassignedIsOf, unassignedSpells, .inr capitals⟩

end Address

end PaymentTarget
