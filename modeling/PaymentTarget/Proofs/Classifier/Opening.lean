import PaymentTarget.Destination
import PaymentTarget.Proofs.Address.Legacy
import PaymentTarget.Proofs.Address.Segwit
import PaymentTarget.Proofs.Node.Target
import PaymentTarget.Proofs.Uri

/-! # How destinations begin

The first two characters of a text, and whether it holds an `@`, leave one
scheme that can read it. Each scheme is looked at once, for how the texts it
reads begin; that no two schemes share a text follows for all pairs together.
-/

namespace PaymentTarget

/-- The only scheme that can read a text, judged by how the text begins. -/
def Scheme.ofOpening? (t : Text) : Option Scheme :=
  match t.lower with
  | '0' :: _ => if '@' ∈ t then some .connectionString else some .nodePublicKey
  | 'b' :: 'c' :: _ | 't' :: 'b' :: _ => some .segwitAddress
  | '1' :: _ | '2' :: _ | '3' :: _ | 'm' :: _ | 'n' :: _ => some .base58Address
  | 'b' :: 'i' :: _ => some .bitcoinUri
  | 'l' :: 'n' :: _ => some .invoice
  | 'l' :: 'i' :: _ => some .lightningUri
  | _ => none

theorem Invoice.lower_of_read {t : Text} {i : Invoice} (read : Invoice.read t = .ok i) :
    ∃ rest, t.lower = 'l' :: 'n' :: rest := by
  unfold Invoice.read at read
  split at read
  · cases read
  · split at read
    · cases read
    next start =>
      rw [not_not, Text.lower_take] at start
      refine ⟨t.lower.drop 2, ?_⟩
      rw [← List.take_append_drop 2 t.lower, start]
      rfl

namespace Scheme

theorem ofOpening?_of_read {scheme : Scheme} {t : Text} {d : Destination}
    (read : scheme.read t = .ok d) : ofOpening? t = some scheme := by
  cases scheme with
  | nodePublicKey =>
      obtain ⟨key, read, -⟩ := map_eq_ok_iff.mp read
      obtain ⟨rest, opening⟩ := NodeKey.lower_of_read read
      simp [ofOpening?, opening, NodeKey.at_not_mem_of_read read]
  | connectionString =>
      obtain ⟨target, read, -⟩ := map_eq_ok_iff.mp read
      obtain ⟨key, socket, rfl, known, -⟩ := NodeTarget.read_eq_ok_iff.mp read
      obtain ⟨rest, opening⟩ := NodeKey.lower_of_read known
      simp [ofOpening?, Text.lower_append, opening]
  | segwitAddress =>
      obtain ⟨address, read, -⟩ := map_eq_ok_iff.mp read
      obtain ⟨rest, opening, -⟩ := Address.lower_of_readSegwit read
      rw [ofOpening?, opening]
      cases address.network <;> rfl
  | base58Address =>
      obtain ⟨address, read, -⟩ := map_eq_ok_iff.mp read
      obtain ⟨c, rest, rfl, opening⟩ := Address.cons_of_readBase58 read
      simp only [List.mem_cons, List.not_mem_nil, or_false] at opening
      rcases opening with rfl | rfl | rfl | rfl | rfl <;> rfl
  | bitcoinUri =>
      obtain ⟨address, read, -⟩ := map_eq_ok_iff.mp read
      obtain ⟨a, holds, -⟩ := Address.readUri_eq_ok_iff.mp read
      obtain ⟨rest, opening⟩ := holds.lower
      rw [ofOpening?, opening]
      rfl
  | invoice =>
      obtain ⟨invoice, read, -⟩ := map_eq_ok_iff.mp read
      obtain ⟨rest, opening⟩ := Invoice.lower_of_read read
      simp [ofOpening?, opening]
  | lightningUri =>
      obtain ⟨invoice, read, -⟩ := map_eq_ok_iff.mp read
      obtain ⟨i, holds, -⟩ := Invoice.readUri_eq_ok_iff.mp read
      obtain ⟨rest, opening⟩ := holds.lower
      rw [ofOpening?, opening]
      rfl

theorem eq_of_read {a b : Scheme} {t : Text} {d e : Destination}
    (first : a.read t = .ok d) (second : b.read t = .ok e) : a = b :=
  Option.some.inj ((ofOpening?_of_read first).symm.trans (ofOpening?_of_read second))

end Scheme

namespace Address

theorem separator_of_readSegwit {t : Text} {x : Address} (read : readSegwit t = .ok x) :
    '1' ∈ t ∧ t.head? ≠ some '1' := by
  obtain ⟨rest, opening, -⟩ := lower_of_readSegwit read
  refine ⟨?_, ?_⟩
  · by_contra absent
    apply Text.separator_not_mem_lower absent
    rw [opening]
    exact List.mem_append_right _ List.mem_cons_self
  · cases t with
    | nil => simp
    | cons c tail =>
        intro first
        rw [Option.some.inj first] at opening
        cases network : x.network <;> rw [network] at opening <;> cases opening

theorem not_readBase58_of_readSegwit {t : Text} {x y : Address} (segwit : readSegwit t = .ok x) :
    readBase58 t ≠ .ok y := by
  intro base58
  have same : Scheme.segwitAddress = Scheme.base58Address :=
    Scheme.eq_of_read (map_eq_ok_iff.mpr ⟨x, segwit, rfl⟩) (map_eq_ok_iff.mpr ⟨y, base58, rfl⟩)
  cases same

/-- An address is read in whichever encoding it is written. -/
theorem read_eq_ok_iff {t : Text} {x : Address} :
    Address.read t = .ok x ↔ readSegwit t = .ok x ∨ readBase58 t = .ok x := by
  constructor
  · intro read
    unfold Address.read at read
    split at read
    · cases read
    · split at read
      · split at read
        next y segwit =>
          rw [← Except.ok.inj read]
          exact .inl segwit
        · exact .inr read
      · exact .inr read
  · rintro (segwit | base58)
    · obtain ⟨separator, first⟩ := separator_of_readSegwit segwit
      have nonempty : t ≠ [] := List.ne_nil_of_mem separator
      have attempted : (t.contains '1' && t.head? != some '1') = true := by
        simp [separator, first]
      rw [Address.read, if_neg (List.isEmpty_iff.not.mpr nonempty), if_pos attempted, segwit]
    · obtain ⟨c, rest, whole, -⟩ := cons_of_readBase58 base58
      have nonempty : t ≠ [] := by
        rw [whole]
        exact List.cons_ne_nil c rest
      rw [Address.read, if_neg (List.isEmpty_iff.not.mpr nonempty)]
      split
      · split
        next segwit => exact absurd base58 (not_readBase58_of_readSegwit segwit)
        · exact base58
      · exact base58

end Address

end PaymentTarget
