import Mathlib
import PaymentTarget.CommandLine.Screen
import PaymentTarget.Proofs.Text

/-! # Lines of a text

A text that is made of lines, each with its line feed behind it, falls into
those lines again, except that a carriage return in front of a line feed is
taken for a part of the end. So lines that do not end in a carriage return come
back whichever of the two ends each of them has.
-/

namespace PaymentTarget.Text

theorem lines_append {line : Text} (single : '\n' ∉ line) (rest : Text) :
    lines (line ++ '\n' :: rest) = line.dropReturn :: rest.lines := by
  have first : line.splitOnP (· == '\n') = [line] := by
    apply List.splitOnP_eq_singleton
    intro c member
    simpa using fun same : c = '\n' => single (same ▸ member)
  have pieces : (line ++ '\n' :: rest).splitOn '\n' = line :: rest.splitOn '\n' := by
    rw [List.splitOn_eq_splitOnP, List.splitOn_eq_splitOnP,
      List.splitOnP_append_cons line rest (by simp), first, List.singleton_append]
  have some : rest.splitOn '\n' ≠ [] := by
    rw [List.splitOn_eq_splitOnP]
    exact List.splitOnP_ne_nil _ _
  simp only [lines, pieces, List.dropLast_cons_of_ne_nil some, List.getLast?_cons_of_ne_nil some,
    List.map_cons, List.cons_append]

theorem lines_flatMap (rows : List Text) (single : ∀ row ∈ rows, '\n' ∉ row) (rest : Text) :
    lines (rows.flatMap (fun row => row ++ ['\n']) ++ rest) =
      rows.map dropReturn ++ rest.lines := by
  induction rows with
  | nil => rfl
  | cons row rows ih =>
      obtain ⟨first, later⟩ := List.forall_mem_cons.mp single
      have written : (row :: rows).flatMap (fun row => row ++ ['\n']) ++ rest =
          row ++ '\n' :: (rows.flatMap (fun row => row ++ ['\n']) ++ rest) := by simp
      rw [written, lines_append first, ih later, List.map_cons, List.cons_append]

/-- What ends a line. -/
inductive LineEnd where
  | feed
  | returnAndFeed
  deriving Repr, DecidableEq

def LineEnd.text : LineEnd → Text
  | .feed => ['\n']
  | .returnAndFeed => ['\r', '\n']

/-- The lines with their ends. -/
def ofRows (rows : List (Text × LineEnd)) : Text :=
  rows.flatMap fun row => row.1 ++ row.2.text

/-- A line that comes back whatever its end is. -/
structure IsLine (t : Text) : Prop where
  single : '\n' ∉ t
  unreturned : t.getLast? ≠ some '\r'

theorem lines_append_end {line : Text} (sound : IsLine line) (ending : LineEnd) (rest : Text) :
    lines (line ++ ending.text ++ rest) = line :: rest.lines := by
  cases ending with
  | feed =>
      have kept : line.dropReturn = line := if_neg sound.unreturned
      rw [LineEnd.text, ← List.append_cons, lines_append sound.single, kept]
  | returnAndFeed =>
      have single : '\n' ∉ line ++ ['\r'] := by simp [sound.single]
      have dropped : (line ++ ['\r']).dropReturn = line := by simp [dropReturn]
      have written : line ++ LineEnd.returnAndFeed.text ++ rest =
          (line ++ ['\r']) ++ '\n' :: rest := by simp [LineEnd.text]
      rw [written, lines_append single, dropped]

theorem lines_ofRows {rows : List (Text × LineEnd)} (sound : ∀ row ∈ rows, IsLine row.1) :
    (ofRows rows).lines = rows.map Prod.fst := by
  induction rows with
  | nil => rfl
  | cons row rows ih =>
      obtain ⟨first, later⟩ := List.forall_mem_cons.mp sound
      have rest : lines (rows.flatMap fun row => row.1 ++ row.2.text) = rows.map Prod.fst := ih later
      rw [ofRows, List.flatMap_cons, lines_append_end first, rest, List.map_cons]

end PaymentTarget.Text
