import PaymentTarget.Network
import PaymentTarget.Text.Utf8

/-! # Settings

Which destinations are accepted. Without settings everything is. Settings can
be taken from environment variables; a variable that is absent, or holds
nothing that is understood, leaves the default.
-/

namespace PaymentTarget

/-- What is accepted as a destination. -/
structure Settings where
  /-- The only network accepted, if there is one. -/
  network : Option Network := none
  /-- Whether URIs are accepted. -/
  allowUriSchemes : Bool := true
  /-- Whether connection strings are accepted. -/
  allowConnectionStrings : Bool := true
  deriving Repr, DecidableEq

namespace Settings

/-- The variable that names the only network. -/
def networkVariable : String := "PAYDEST_NETWORK"

/-- The variable that says whether URIs are accepted. -/
def uriSchemesVariable : String := "PAYDEST_ALLOW_URI_SCHEMES"

/-- The variable that says whether connection strings are accepted. -/
def connectionStringsVariable : String := "PAYDEST_ALLOW_CONNECTION_STRINGS"

/-- What a person means by a word for yes or no, in any case, with blanks
    around it. The words are ASCII, and no other letter has one of theirs as
    its small form. -/
def readSwitch? (t : Text) : Option Bool :=
  match String.ofList t.trim.lower with
  | "1" | "true" | "yes" | "on" => some true
  | "0" | "false" | "no" | "off" => some false
  | _ => none

/-- The settings of an environment, which maps the name of a variable to the
    bytes it holds. Bytes that are not UTF-8 hold nothing that is understood. -/
def ofEnvironment (environment : String → Option (List UInt8)) : Settings :=
  let textOf (name : String) := (environment name).bind Text.ofUtf8?
  { network := (textOf networkVariable).bind Network.ofWord?
    allowUriSchemes := ((textOf uriSchemesVariable).bind readSwitch?).getD true
    allowConnectionStrings := ((textOf connectionStringsVariable).bind readSwitch?).getD true }

/-- The settings that accept one network only. -/
def withNetwork (s : Settings) (network : Network) : Settings :=
  { s with network := some network }

/-- The settings with URIs accepted or refused. -/
def withUriSchemes (s : Settings) (allow : Bool) : Settings :=
  { s with allowUriSchemes := allow }

/-- The settings with connection strings accepted or refused. -/
def withConnectionStrings (s : Settings) (allow : Bool) : Settings :=
  { s with allowConnectionStrings := allow }

end Settings

end PaymentTarget
