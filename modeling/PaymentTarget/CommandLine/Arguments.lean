import PaymentTarget.Settings

/-! # Arguments

A command with its text or its file, and flags that restrict what is accepted.
The restricting flags may stand before the command or behind it, once on each
side; the network given behind the command counts. A value follows its flag as
the next argument or behind an equals sign. After `--` every argument is text.
Whatever does not fit this form is refused as a whole.
-/

namespace PaymentTarget

/-- The commands by name. -/
inductive Verb where
  /-- Says what kind of destination a text is. -/
  | classify
  /-- Says whether a send goes on with a text. -/
  | decide
  /-- Shows everything that a text says. -/
  | inspect
  /-- Decides every line of a file. -/
  | screen
  deriving Repr, DecidableEq

def Verb.ofName? (name : Text) : Option Verb :=
  match String.ofList name with
  | "classify" => some .classify
  | "decide" => some .decide
  | "inspect" => some .inspect
  | "screen" => some .screen
  | _ => none

/-- A command with all it needs. -/
inductive Command where
  /-- Classify a text, and say so in JSON or in plain words. -/
  | classify (text : Text) (json : Bool)
  /-- Decide on a text, and say so in JSON or in plain words. -/
  | decide (text : Text) (json : Bool)
  /-- Show what a text says. -/
  | inspect (text : Text)
  /-- Decide every line of the file with this name. -/
  | screen (input : Text) (json : Bool)
  deriving Repr, DecidableEq

/-- What the arguments ask for. -/
structure Invocation where
  /-- The only network to accept. -/
  network : Option Network
  /-- Whether URIs are refused. -/
  noUriSchemes : Bool
  /-- Whether connection strings are refused. -/
  noConnectionStrings : Bool
  command : Command
  deriving Repr, DecidableEq

/-- The settings with the restrictions of the arguments. -/
def Invocation.restrict (i : Invocation) (s : Settings) : Settings :=
  let s := match i.network with
    | some network => s.withNetwork network
    | none => s
  let s := if i.noUriSchemes then s.withUriSchemes false else s
  if i.noConnectionStrings then s.withConnectionStrings false else s

namespace Arguments

inductive Token where
  /-- Two hyphens, after which there are no flags. -/
  | ending
  /-- A flag, with the value behind its equals sign if there is one. -/
  | flag (name : Text) (value : Option Text)
  /-- A hyphen and letters, which names no flag. -/
  | letters
  /-- Any other text, a single hyphen and the empty text among them. -/
  | plain (text : Text)
  deriving Repr, DecidableEq

def Token.ofText : Text → Token
  | ['-'] => .plain ['-']
  | ['-', '-'] => .ending
  | '-' :: '-' :: rest =>
      match Text.splitFirst? '=' rest with
      | some (name, value) => .flag name (some value)
      | none => .flag rest none
  | '-' :: _ => .letters
  | text => .plain text

/-- What the arguments on one side of the command have said so far. -/
structure Given where
  network : Option Network := none
  /-- Whether URIs are refused. -/
  noUriSchemes : Bool := false
  /-- Whether connection strings are refused. -/
  noConnectionStrings : Bool := false
  /-- Whether the answer is to be JSON. -/
  json : Bool := false
  /-- The name of the file. -/
  input : Option Text := none
  text : Option Text := none
  deriving Repr, DecidableEq

/-- Whether a flag needs a value, behind the command `verb` or before any. -/
def takesValue (verb : Option Verb) (name : Text) : Bool :=
  String.ofList name == "network" || (verb == some .screen && String.ofList name == "input")

/-- Whether there is a flag for answers in JSON. -/
def offersJson : Option Verb → Bool
  | some .classify | some .decide | some .screen => true
  | some .inspect | none => false

/-- A flag without a value. None may be given twice. -/
def Given.addFlag (g : Given) (verb : Option Verb) (name : Text) : Option Given :=
  match String.ofList name with
  | "no-uri-schemes" => if g.noUriSchemes then none else some { g with noUriSchemes := true }
  | "no-connection-strings" =>
      if g.noConnectionStrings then none else some { g with noConnectionStrings := true }
  | "json" => if g.json || !offersJson verb then none else some { g with json := true }
  | _ => none

/-- A flag with its value. None may be given twice, a network has to be known,
    and a file has to have a name. -/
def Given.addValue (g : Given) (verb : Option Verb) (name value : Text) : Option Given :=
  if !takesValue verb name then none
  else if String.ofList name = "network" then
    if g.network.isSome then none
    else (Network.ofWord? value).map fun network => { g with network := some network }
  else if g.input.isSome || value.isEmpty then none
  else some { g with input := some value }

/-- A text. Commands that work on a text take one, the others none. -/
def Given.addText (g : Given) (verb : Option Verb) (text : Text) : Option Given :=
  match verb with
  | none | some .screen => none
  | some _ => if g.text.isSome then none else some { g with text := some text }

/-- Reads arguments that all are texts. -/
def readTexts (verb : Option Verb) (g : Given) (texts : List Text) : Option Given :=
  texts.foldlM (fun g text => g.addText verb text) g

/-- Reads the arguments on one side of the command. Before the command, reading
    stops at the first text, which is to be the name of the command. -/
def readSide (verb : Option Verb) (g : Given) : List Text → Option (Given × List Text)
  | [] => some (g, [])
  | argument :: rest =>
      match Token.ofText argument with
      | .ending => (readTexts verb g rest).map fun g => (g, [])
      | .letters => none
      | .plain text =>
          if verb = none then some (g, argument :: rest)
          else (g.addText verb text).bind fun g => readSide verb g rest
      | .flag name (some value) =>
          (g.addValue verb name value).bind fun g => readSide verb g rest
      | .flag name none =>
          if takesValue verb name then
            match rest with
            | [] => none
            | next :: rest =>
                match Token.ofText next with
                | .plain value =>
                    (g.addValue verb name value).bind fun g => readSide verb g rest
                | _ => none
          else (g.addFlag verb name).bind fun g => readSide verb g rest

/-- The command that the arguments behind its name ask for. -/
def Given.command? (g : Given) : Verb → Option Command
  | .classify => g.text.map fun text => .classify text g.json
  | .decide => g.text.map fun text => .decide text g.json
  | .inspect => g.text.map fun text => .inspect text
  | .screen => g.input.map fun input => .screen input g.json

/-- Reads all arguments. -/
def read? (arguments : List Text) : Option Invocation :=
  match readSide none {} arguments with
  | some (before, name :: rest) =>
      match Verb.ofName? name with
      | none => none
      | some verb =>
          match readSide (some verb) {} rest with
          | none => none
          | some (behind, _) =>
              (behind.command? verb).map fun command =>
                { network := behind.network.or before.network
                  noUriSchemes := before.noUriSchemes || behind.noUriSchemes
                  noConnectionStrings := before.noConnectionStrings || behind.noConnectionStrings
                  command }
  | _ => none

end Arguments

end PaymentTarget
