import PaymentTarget.Node.Target
import PaymentTarget.Proofs.Node.Key
import PaymentTarget.Proofs.Node.Socket

/-! # Connection strings and their parts

The first `@` of a connection string is the only one that can end a key, so the
key and the socket of a text are determined by it. The socket is kept as it was
written; the key has one text in small letters, which can stand in its place.
-/

namespace PaymentTarget.NodeTarget

theorem read_eq_ok_iff {t : Text} {n : NodeTarget} :
    NodeTarget.read t = .ok n ↔
      ∃ key socket, t = key ++ '@' :: socket ∧ NodeKey.read key = .ok n.key ∧
        Socket.fault? socket = none ∧ n.socket = some socket := by
  constructor
  · intro read
    unfold NodeTarget.read at read
    split at read
    · cases read
    next key socket cut =>
      split at read
      · cases read
      next k known =>
        split at read
        · cases read
        next sound =>
          rw [← Except.ok.inj read]
          exact ⟨key, socket, Text.eq_of_splitFirst? cut, known, sound, rfl⟩
  · rintro ⟨key, socket, rfl, known, sound, kept⟩
    have cut := Text.splitFirst?_append (NodeKey.at_not_mem_of_read known) socket
    rw [NodeTarget.read, cut]
    simp only [known, sound, ← kept]

/-- A node is read from a key and a socket of the grammar, and also with the key in small
    letters. -/
theorem read_iff_written (t : Text) :
    (∀ n : NodeTarget, NodeTarget.read t = .ok n ↔
        ∃ key socket, t = key ++ '@' :: socket ∧ NodeKey.read key = .ok n.key ∧
          Socket.Written socket ∧ n.socket = some socket) ∧
      ∀ (n : NodeTarget) (socket : Text), NodeTarget.read t = .ok n → n.socket = some socket →
        NodeTarget.read (n.key.toHex ++ '@' :: socket) = .ok n := by
  constructor
  · intro n
    simp only [read_eq_ok_iff, Socket.fault?_eq_none_iff]
  · intro n socket read kept
    obtain ⟨key, written, -, -, sound, same⟩ := read_eq_ok_iff.mp read
    obtain rfl : written = socket := Option.some.inj (same.symm.trans kept)
    exact read_eq_ok_iff.mpr ⟨_, _, rfl, NodeKey.read_toHex n.key, sound, kept⟩

/-- A bracketed host, and a port with a plus sign and zeros in front. -/
theorem read_iff_written_of_brackets :
    let key := "0279BE667EF9DCBBAC55A06295CE870B07029BFCDB2DCE28D959F2815B16F81798".toList
    let socket := "[fe80::1%eth0]:+0065535".toList
    Socket.Written socket ∧ ∃ n, NodeTarget.read (key ++ '@' :: socket) = .ok n ∧
      n.socket = some socket ∧ NodeTarget.read (n.key.toHex ++ '@' :: socket) = .ok n := by
  intro key socket
  have written : Socket.Written socket := by
    have host : Socket.HostText ('[' :: ("fe80::1%eth0".toList ++ [']'])) :=
      .bracketed (by decide +kernel) (by decide +kernel)
    have port : Socket.PortText ('+' :: (List.replicate 2 '0' ++ Nat.toDigits 10 65535)) :=
      .plus 2 (by decide) (by decide)
    have whole : socket = '[' :: ("fe80::1%eth0".toList ++ [']']) ++
        ':' :: ('+' :: (List.replicate 2 '0' ++ Nat.toDigits 10 65535)) := by
      have number : Nat.toDigits 10 65535 = ['6', '5', '5', '3', '5'] := by
        simp [Nat.toDigits_of_base_le, Nat.toDigits_of_lt_base]
      rw [number]
      decide +kernel
    have allowed : socket.any Socket.isForbidden = false := by decide +kernel
    obtain ⟨visible, plain⟩ := Socket.any_isForbidden_eq_false_iff.mp allowed
    exact ⟨visible, plain, whole ▸ .port host port⟩
  obtain ⟨k, known⟩ : ∃ k, NodeKey.read key = .ok k := exists_ok_of_toBool (by decide +kernel)
  obtain ⟨accepted, canonical⟩ := read_iff_written (key ++ '@' :: socket)
  have read := (accepted ⟨k, some socket⟩).mpr ⟨key, socket, rfl, known, written, rfl⟩
  exact ⟨written, _, read, rfl, canonical _ socket read rfl⟩

end PaymentTarget.NodeTarget
