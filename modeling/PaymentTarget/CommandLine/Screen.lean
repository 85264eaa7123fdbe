import PaymentTarget.Json.Codec

/-! # Screening a file

Every line of a file is decided by itself. A line ends with a line feed, and a
carriage return before the line feed belongs to the end; a last line without a
line feed is kept as it stands. The report lists the decisions in order and
counts them by outcome.
-/

namespace PaymentTarget

/-- The line without a carriage return at its end. -/
def Text.dropReturn (line : Text) : Text :=
  if line.getLast? = some '\r' then line.dropLast else line

def Text.lines (t : Text) : List Text :=
  let pieces := t.splitOn '\n'
  let last := pieces.getLast?.getD []
  pieces.dropLast.map Text.dropReturn ++ if last.isEmpty then [] else [last]

/-- The decisions on the lines of a file. -/
structure ScreenReport where
  /-- The name of the file. -/
  input : Text
  /-- The decision on each line, in order, under the number of the line. -/
  numbered : List (Nat × Intent) := []
  /-- The outcomes that occur, in alphabetical order, each with the number of its lines. -/
  counts : List (String × Nat) := []
  deriving Repr, DecidableEq

namespace ScreenReport

/-- Counts one more line with this outcome. -/
def countLine (label : String) : List (String × Nat) → List (String × Nat)
  | [] => [(label, 1)]
  | (other, n) :: rest =>
      if label = other then (other, n + 1) :: rest
      else if label < other then (label, 1) :: (other, n) :: rest
      else (other, n) :: countLine label rest

/-- Decides one more line, which has this number. -/
def addLine (s : Settings) (r : ScreenReport) (line : Text × Nat) : ScreenReport :=
  let intent := s.decide line.1
  { r with
    numbered := r.numbered ++ [(line.2, intent)]
    counts := countLine intent.label r.counts }

/-- Decides every line of a file, with numbers from one. -/
def ofContents (s : Settings) (input contents : Text) : ScreenReport :=
  (contents.lines.zipIdx 1).foldl (addLine s) { input }

/-- A number in a column of five characters. -/
def column (n : Nat) : String :=
  let digits := toString n
  "".pushn ' ' (5 - digits.length) ++ digits

/-- The report in plain words. -/
def toText (r : ScreenReport) : String :=
  String.join (r.numbered.map fun (n, intent) => column n ++ "  " ++ intent.label ++ "\n")
    ++ "\nSummary (" ++ String.ofList r.input ++ "):\n"
    ++ String.join (r.counts.map fun (label, n) => "  " ++ label ++ s!": {n}\n")

def toJson (r : ScreenReport) : Json :=
  .object [("input", .string r.input),
    ("lines", .array (r.numbered.map fun (n, intent) =>
      .object (("line", .ofNat n) :: intent.members))),
    ("counts", .object (r.counts.map fun (label, n) => (label, .ofNat n)))]

end ScreenReport

end PaymentTarget
