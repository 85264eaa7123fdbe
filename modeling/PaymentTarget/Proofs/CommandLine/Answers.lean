import PaymentTarget.CommandLine.Run
import PaymentTarget.Proofs.CommandLine.Screen
import PaymentTarget.Proofs.Send.Views

/-! # What the commands answer

The commands are compared by what they write. `inspect` fails for just those
texts that `classify` calls unknown, and a line of a screened file is given the
label that `decide` gives to its text. In plain words the label of an outcome
is the last word of a line, in JSON it is a member of an object.
-/

namespace PaymentTarget

/-- The arguments ask for this command, to be run under these settings. -/
def Arguments.AskFor (environment : String → Option (List UInt8)) (arguments : List Text)
    (s : Settings) (command : Command) : Prop :=
  ∃ i, Arguments.read? arguments = some i ∧ i.command = command ∧
    i.restrict (Settings.ofEnvironment environment) = s

theorem runArguments_of_askFor {environment : String → Option (List UInt8)}
    {arguments : List Text} {s : Settings} {command : Command}
    (asked : Arguments.AskFor environment arguments s command) (files : Text → FileContents) :
    runArguments arguments environment files = command.run s files := by
  obtain ⟨i, read, rfl, rfl⟩ := asked
  rw [runArguments, read]

/-- The last word of a line. -/
def Text.lastWord? (line : Text) : Option Text :=
  (line.splitLast? ' ').map Prod.snd

/-- The label in the object of an outcome: the kind of a destination, or a reason. -/
def Json.label? : Json → Option Text
  | .object members => ((member? "kind" members).or (member? "reason" members)).bind text?
  | _ => none

namespace RunResult

/-- The answer shows the label of one outcome. -/
def Shows (json : Bool) (r : RunResult) (label : String) : Prop :=
  if json then ∃ outcome, r = .ofJson outcome ∧ outcome.label? = some label.toList
  else (Text.lines r.output.toList).head?.bind Text.lastWord? = some label.toList

/-- The answer shows the label of the outcome that stands in a line, counted from zero. -/
def ShowsAt (json : Bool) (line : Nat) (r : RunResult) (label : String) : Prop :=
  if json then
    ∃ members outcomes, r = .ofJson (.object members) ∧
      Json.member? "lines" members = some (.array outcomes) ∧
      outcomes[line]?.bind Json.label? = some label.toList
  else (Text.lines r.output.toList)[line]?.bind Text.lastWord? = some label.toList

end RunResult

namespace Intent

/-- The labels of all outcomes. -/
def labels : List String :=
  ["empty_input", "node_public_key", "on_chain_address", "unparseable_destination",
    "unsupported_invoice"]

theorem label_mem_labels (i : Intent) : i.label ∈ labels := by
  cases i with
  | proceed _ kind =>
      show kind.name ∈ labels
      cases kind <;> decide
  | reject reason =>
      show reason.code ∈ labels
      cases reason <;> decide

/-- No label holds a character that ends a word or a line. -/
theorem forall_mem_label (i : Intent) : ∀ c ∈ i.label.toList, c ≠ ' ' ∧ c ≠ '\n' ∧ c ≠ '\r' := by
  have all : ∀ label ∈ labels, ∀ c ∈ label.toList, c ≠ ' ' ∧ c ≠ '\n' ∧ c ≠ '\r' := by
    simp [labels]
  exact all _ i.label_mem_labels

theorem label_ne_nil (i : Intent) : i.label.toList ≠ [] := by
  have all : ∀ label ∈ labels, label.toList ≠ [] := by simp [labels]
  exact all _ i.label_mem_labels

theorem label?_toJson (i : Intent) : i.toJson.label? = some i.label.toList := by
  cases i <;> rfl

theorem label?_numbered (i : Intent) (n : Nat) :
    (Json.object (("line", .ofNat n) :: i.members)).label? = some i.label.toList := by
  cases i <;> rfl

theorem lastWord?_label (i : Intent) (front : Text) :
    Text.lastWord? (front ++ ' ' :: i.label.toList) = some i.label.toList := by
  have single : ' ' ∉ i.label.toList := fun member => (i.forall_mem_label _ member).1 rfl
  rw [Text.lastWord?, Text.splitLast?_append front single]
  rfl

theorem dropReturn_label (i : Intent) (front : Text) :
    Text.dropReturn (front ++ ' ' :: i.label.toList) = front ++ ' ' :: i.label.toList := by
  have final : (front ++ ' ' :: i.label.toList).getLast? = i.label.toList.getLast? := by
    rw [List.append_cons, List.getLast?_append_of_ne_nil _ i.label_ne_nil]
  rw [Text.dropReturn, if_neg]
  rw [final]
  intro returned
  exact (i.forall_mem_label _ (List.mem_of_getLast? returned)).2.2 rfl

end Intent

namespace ScreenReport

theorem toList_pushn (s : String) (c : Char) (n : Nat) :
    (s.pushn c n).toList = s.toList ++ List.replicate n c := by
  rw [String.pushn_eq_repeat_push]
  induction n with
  | zero => simp [Nat.repeat]
  | succ n ih => simp [Nat.repeat, ih, List.replicate_succ']

theorem newLine_not_mem_column (n : Nat) : '\n' ∉ (column n).toList := by
  intro member
  rw [column, String.toList_append, toList_pushn] at member
  rcases List.mem_append.mp member with blank | digit
  · simp at blank
  · have digits : (toString n).toList = Nat.toDigits 10 n := Nat.toList_repr
    rw [digits] at digit
    exact absurd (Nat.isDigit_of_mem_toDigits (by omega) (by omega) digit) (by decide)

/-- A line of the report in plain words, without its end. -/
def row (entry : Nat × Intent) : Text :=
  (column entry.1 ++ " ").toList ++ ' ' :: entry.2.label.toList

theorem newLine_not_mem_row (entry : Nat × Intent) : '\n' ∉ row entry := by
  have label : '\n' ∉ entry.2.label.toList :=
    fun member => (entry.2.forall_mem_label _ member).2.1 rfl
  simp [row, newLine_not_mem_column, label]

theorem toList_rows (entries : List (Nat × Intent)) :
    (String.join (entries.map fun (n, intent) =>
      column n ++ "  " ++ intent.label ++ "\n")).toList =
        (entries.map row).flatMap fun line => line ++ ['\n'] := by
  induction entries with
  | nil => rfl
  | cons entry entries ih =>
      have blanks : "  ".toList = [' ', ' '] := rfl
      have ending : "\n".toList = ['\n'] := rfl
      simp only [List.map_cons, String.join_cons, String.toList_append, ih, row,
        List.flatMap_cons, blanks, ending]
      simp

/-- The report begins with a line for each decision. -/
theorem lines_toText (r : ScreenReport) :
    ∃ summary, Text.lines r.toText.toList = r.numbered.map row ++ summary := by
  have rows : ∀ line ∈ r.numbered.map row, '\n' ∉ line := by
    intro line member
    obtain ⟨entry, -, rfl⟩ := List.mem_map.mp member
    exact newLine_not_mem_row entry
  have kept : (r.numbered.map row).map Text.dropReturn = r.numbered.map row := by
    rw [List.map_map]
    apply List.map_congr_left
    intro entry _
    rw [Function.comp_apply, row, Intent.dropReturn_label]
  simp only [toText, String.append_assoc]
  rw [String.toList_append]
  simp only [← String.append_assoc]
  rw [toList_rows, Text.lines_flatMap _ rows, kept]
  exact ⟨_, rfl⟩

end ScreenReport

namespace Command

variable {s : Settings} {t : Text}

/-- What `classify` writes for a text that no scheme reads. -/
def unknownOutput (json : Bool) : String :=
  if json then "\x7b\n  \"kind\": \"unknown\"\n\x7d\n" else "unknown\n"

theorem status_runInspect : (runInspect s t).status = 1 ↔ ∀ d, s.parse t ≠ .ok d := by
  unfold runInspect
  cases s.parse t with
  | ok d => simp [RunResult.ofJson, RunResult.status]
  | error failure => simp [RunResult.status]

theorem output_runClassify (json : Bool) :
    (runClassify s t json).output = unknownOutput json ↔ ∀ d, s.parse t ≠ .ok d := by
  cases resolved : s.resolve t with
  | ok m =>
      obtain ⟨parsed, matched, classified⟩ := Settings.views_of_match resolved
      refine iff_of_false ?_ fun none => none _ parsed
      simp only [runClassify, matched, classified]
      cases m.scheme <;> cases json <;> decide +kernel
  | error failure =>
      obtain ⟨parsed, matched, classified⟩ := Settings.views_of_failure resolved
      refine iff_of_true ?_ (by simp [parsed])
      simp only [runClassify, matched, classified]
      cases json <;> decide +kernel

theorem head?_lines_intentText (i : Intent) :
    ∃ front, (Text.lines (intentText i).toList).head? = some (front ++ ' ' :: i.label.toList) := by
  have single : '\n' ∉ i.label.toList := fun member => (i.forall_mem_label _ member).2.1 rfl
  have written : ∃ front rest, '\n' ∉ front ∧
      (intentText i).toList = (front ++ ' ' :: i.label.toList) ++ '\n' :: rest := by
    cases i with
    | proceed _ kind => exact ⟨"proceed:".toList, [], by decide, by simp [intentText, Intent.label]⟩
    | reject reason =>
        exact ⟨"reject:".toList, ' ' :: ' ' :: reason.message.toList ++ ['\n'], by decide,
          by simp [intentText, Intent.label]⟩
  obtain ⟨front, rest, early, written⟩ := written
  have line : '\n' ∉ front ++ ' ' :: i.label.toList := by simp [early, single]
  refine ⟨front, ?_⟩
  rw [written, Text.lines_append line, Intent.dropReturn_label, List.head?_cons]

theorem runDecide_shows (json : Bool) :
    (runDecide s t json).Shows json (s.decide t).label := by
  cases json with
  | true => exact ⟨_, rfl, (s.decide t).label?_toJson⟩
  | false =>
      obtain ⟨front, first⟩ := head?_lines_intentText (s.decide t)
      simp only [RunResult.Shows, runDecide, Bool.false_eq_true, if_false, RunResult.output, first]
      rw [Option.bind_some, Intent.lastWord?_label]

theorem runScreen_showsAt {input text : Text} {contents : FileContents} (json : Bool) {n : Nat}
    (read : contents.text = .ok text) (line : text.lines[n]? = some t) :
    (runScreen s input contents json).ShowsAt json n (s.decide t).label := by
  have entry : (ScreenReport.ofContents s input text).numbered[n]? = some (n + 1, s.decide t) :=
    ScreenReport.getElem?_numbered line
  unfold runScreen
  rw [read]
  cases json with
  | true =>
      refine ⟨_, _, rfl, rfl, ?_⟩
      rw [List.getElem?_map, entry]
      exact (s.decide t).label?_numbered (n + 1)
  | false =>
      obtain ⟨summary, lines⟩ := (ScreenReport.ofContents s input text).lines_toText
      have inside : n < ((ScreenReport.ofContents s input text).numbered.map
          ScreenReport.row).length := by
        rw [List.length_map]
        exact (List.getElem?_eq_some_iff.mp entry).1
      simp only [RunResult.ShowsAt, Bool.false_eq_true, if_false, RunResult.output, lines]
      rw [List.getElem?_append_left inside, List.getElem?_map, entry]
      rw [Option.map_some, Option.bind_some, ScreenReport.row, Intent.lastWord?_label]

end Command

/-- What is said of one text agrees, and so do the commands: `inspect` fails on just those texts
that `classify` calls unknown, and the label of a text is the same in a screened file. -/
theorem answers_agree :
    (∀ (s : Settings) (t : Text), s.Agrees t) ∧
    (∀ (environment : String → Option (List UInt8)) (files : Text → FileContents) (s : Settings)
      (t : Text) (inspecting classifying : List Text) (json : Bool),
      Arguments.AskFor environment inspecting s (.inspect t) →
      Arguments.AskFor environment classifying s (.classify t json) →
      ((runArguments inspecting environment files).status = 1 ↔
        (runArguments classifying environment files).output = Command.unknownOutput json)) ∧
    ∀ (environment : String → Option (List UInt8)) (files : Text → FileContents) (s : Settings)
      (t : Text) (deciding screening : List Text) (json json' : Bool) (input contents : Text)
      (n : Nat),
      Arguments.AskFor environment deciding s (.decide t json) →
      Arguments.AskFor environment screening s (.screen input json') →
      (files input).text = .ok contents → contents.lines[n]? = some t →
        (runArguments deciding environment files).Shows json (s.decide t).label ∧
        (runArguments screening environment files).ShowsAt json' n (s.decide t).label := by
  refine ⟨Settings.agrees, ?_, ?_⟩
  · intro _ files s t _ _ json inspects classifies
    rw [runArguments_of_askFor inspects, runArguments_of_askFor classifies]
    exact Command.status_runInspect.trans (Command.output_runClassify json).symm
  · intro _ files s t _ _ json json' input contents n decides screens read line
    rw [runArguments_of_askFor decides, runArguments_of_askFor screens]
    exact ⟨Command.runDecide_shows json, Command.runScreen_showsAt json' read line⟩

theorem answers_agree_of_file :
    let environment : String → Option (List UInt8) := fun _ => none
    let address : Text := "bc1qw508d6qejxtdg4y5r3zarvary0c5xw7kv8f3t4".toList
    let contents : Text := "nothing\r\n".toList ++ address
    let files : Text → FileContents := fun _ => .file (Text.utf8 contents)
    (runArguments ["inspect".toList, "nothing".toList] environment files).status = 1 ∧
    (runArguments ["classify".toList, "nothing".toList, "--json".toList] environment files).output =
      Command.unknownOutput true ∧
    (runArguments ["decide".toList, address, "--network".toList, "bitcoin".toList]
      environment files).Shows false "on_chain_address" ∧
    (runArguments ["--network=bitcoin".toList, "screen".toList, "--input=list".toList]
      environment files).ShowsAt false 1 "on_chain_address" := by
  intro environment address contents files
  let s : Settings := { network := some .bitcoin }
  have inspects : Arguments.AskFor environment ["inspect".toList, "nothing".toList] {}
      (.inspect "nothing".toList) := ⟨⟨none, false, false, _⟩, by decide +kernel, rfl, rfl⟩
  have classifies : Arguments.AskFor environment
      ["classify".toList, "nothing".toList, "--json".toList] {}
      (.classify "nothing".toList true) := ⟨⟨none, false, false, _⟩, by decide +kernel, rfl, rfl⟩
  have decides : Arguments.AskFor environment
      ["decide".toList, address, "--network".toList, "bitcoin".toList] s
      (.decide address false) := ⟨⟨some .bitcoin, false, false, _⟩, by decide +kernel, rfl, rfl⟩
  have screens : Arguments.AskFor environment
      ["--network=bitcoin".toList, "screen".toList, "--input=list".toList] s
      (.screen "list".toList false) :=
    ⟨⟨some .bitcoin, false, false, _⟩, by decide +kernel, rfl, rfl⟩
  have failed :
      (runArguments ["inspect".toList, "nothing".toList] environment files).status = 1 := by
    decide +kernel
  have read : (files "list".toList).text = .ok contents := by decide +kernel
  have line : contents.lines[1]? = some address := by decide +kernel
  have decided : s.decide address = .proceed address .onChainAddress := by decide +kernel
  obtain ⟨-, unknown, labelled⟩ := answers_agree
  have shown := labelled environment files s address _ _ false false _ _ 1 decides screens read line
  rw [decided] at shown
  exact ⟨failed, (unknown environment files {} _ _ _ true inspects classifies).mp failed, shown⟩

end PaymentTarget
