/-
# Settings

Settings come from the environment, one variable each; a variable that is missing or
does not read as a value leaves the default.

| variable | setting | default |
| --- | --- | --- |
| `QHL_LEXICAL_DETAILED_METRICS` | `countTokens` | true |
| `QHL_LEXICAL_LOG_DEGRADED` | `reportNearMisses` | true |
| `QHL_LEXICAL_INCLUDE_POSITIONS` | `reportSpans` | true |
| `QHL_MARKER_OPEN_TAG` | `openTag`, unless empty | `<kw>` |
| `QHL_MARKER_CLOSE_TAG` | `closeTag`, unless empty | `</kw>` |
| `QHL_MARKER_LOG_MALFORMED` | `reportMalformed` | true |
| `QHL_RENDER_CLASS_STYLE` | `classStyle` | prism |
| `QHL_RENDER_QUOTES_IN_VALUE` | `quotesInside` | true |
| `QHL_LOGGING_USE_STRUCTURED` | `structured` | false |
| `QHL_LOGGING_ENABLE_CONSOLE` | `console` | false |
| `QHL_LOGGING_MIN_LEVEL` | `level` | info |
| `QHL_LOGGING_LOG_PERFORMANCE` | `timings` | false |
-/

import SearchMarkup.Journal.Level
import SearchMarkup.Limits

namespace SearchMarkup

/-- The variables that are set, with their values. -/
abbrev Environment := List (String × String)

namespace Environment

/-- The value of a variable. -/
def get? (env : Environment) (name : String) : Option String :=
  (env.find? fun v => v.1 == name).map Prod.snd

/-- The truth value a variable spells out, or a default. -/
def flag (env : Environment) (name : String) (default : Bool) : Bool :=
  match env.get? name with
  | some "true" => true
  | some "false" => false
  | _ => default

/-- The value of a variable unless it is empty, or a default. -/
def nonEmpty (env : Environment) (name : String) (default : Text) : Text :=
  match env.get? name with
  | none => default
  | some value => if value.isEmpty then default else value.toList

end Environment

/-- How queries are scanned. -/
structure ScanSettings where
  /-- Count the tokens of each kind. -/
  countTokens : Bool
  /-- Report text that fell short of a rule. -/
  reportNearMisses : Bool
  /-- Say where that text stands. -/
  reportSpans : Bool
  deriving DecidableEq, Repr

/-- How snippets are split. -/
structure MarkingSettings where
  openTag : Text
  closeTag : Text
  /-- Report tags without a partner. -/
  reportMalformed : Bool
  deriving DecidableEq, Repr

/-- A vocabulary of class names. -/
inductive ClassStyle where
  | prism
  | plain
  deriving DecidableEq, Repr

/-- How markup is rendered. -/
structure RenderSettings where
  classStyle : ClassStyle
  /-- Put the quote characters of a value into its span. -/
  quotesInside : Bool
  deriving DecidableEq, Repr

/-- How the journal is kept. -/
structure JournalSettings where
  /-- Write events as JSON. -/
  structured : Bool
  /-- Write events at all. -/
  console : Bool
  level : Level
  /-- Report how long runs take. -/
  timings : Bool
  deriving DecidableEq, Repr

/-- All settings. -/
structure Settings where
  scan : ScanSettings
  marking : MarkingSettings
  render : RenderSettings
  journal : JournalSettings
  deriving DecidableEq, Repr

def ScanSettings.ofEnvironment (env : Environment) : ScanSettings where
  countTokens := env.flag "QHL_LEXICAL_DETAILED_METRICS" true
  reportNearMisses := env.flag "QHL_LEXICAL_LOG_DEGRADED" true
  reportSpans := env.flag "QHL_LEXICAL_INCLUDE_POSITIONS" true

def MarkingSettings.ofEnvironment (env : Environment) : MarkingSettings where
  openTag := env.nonEmpty "QHL_MARKER_OPEN_TAG" Limits.openTag
  closeTag := env.nonEmpty "QHL_MARKER_CLOSE_TAG" Limits.closeTag
  reportMalformed := env.flag "QHL_MARKER_LOG_MALFORMED" true

namespace ClassStyle

/-- The name of a style in settings. -/
def name : ClassStyle → String
  | .prism => "prism"
  | .plain => "plain"

/-- The style named by a word, in any letter case. -/
def ofText? (t : String) : Option ClassStyle :=
  let w := String.ofList (t.toList.map Char.toLower)
  if w = "prism" then some .prism
  else if w = "plain" ∨ w = "short" then some .plain
  else none

end ClassStyle

def RenderSettings.ofEnvironment (env : Environment) : RenderSettings where
  classStyle := ((env.get? "QHL_RENDER_CLASS_STYLE").bind ClassStyle.ofText?).getD .prism
  quotesInside := env.flag "QHL_RENDER_QUOTES_IN_VALUE" true

def JournalSettings.ofEnvironment (env : Environment) : JournalSettings where
  structured := env.flag "QHL_LOGGING_USE_STRUCTURED" false
  console := env.flag "QHL_LOGGING_ENABLE_CONSOLE" false
  level := ((env.get? "QHL_LOGGING_MIN_LEVEL").bind Level.ofText?).getD .info
  timings := env.flag "QHL_LOGGING_LOG_PERFORMANCE" false

/-- The settings of an environment. -/
def Settings.ofEnvironment (env : Environment) : Settings where
  scan := .ofEnvironment env
  marking := .ofEnvironment env
  render := .ofEnvironment env
  journal := .ofEnvironment env

end SearchMarkup
