/-
# Command-line arguments

    [options] tokenize [options] [query …]
    [options] markers  [options] [snippet …]
    [options] info     [options]

| option | where | value |
| --- | --- | --- |
| `--log-level` | everywhere | a level |
| `--structured-logs` | everywhere | none |
| `-f`, `--file` | `tokenize`, `markers` | a path, not empty |
| `--format` | `tokenize`, `markers` | `text`, `json` or `html` |
| `--plain-classes` | `tokenize` | none |
| `--open`, `--close` | `markers` | a tag |

A value follows its option as the next argument, after `=`, or right after a one-letter
option. The next argument is no value if it begins with `-` and is longer than that.
After `--` there are no more options. No option is given twice in one place; an option
after the command's name outweighs the same one before it.

Arguments are taken from left to right, and the first that is refused, or that asks for
help or the version, settles the matter.
-/

import SearchMarkup.Journal.Level

namespace SearchMarkup

/-- The forms a result is written in. -/
inductive OutputFormat where
  | text
  | json
  | html
  deriving DecidableEq, Repr

namespace OutputFormat

def ofText? (t : String) : Option OutputFormat :=
  if t = "text" then some .text
  else if t = "json" then some .json
  else if t = "html" then some .html
  else none

end OutputFormat

/-- What to do. -/
inductive Command where
  | tokenize (queries : List String) (file : Option String) (format : OutputFormat)
      (plainClasses : Bool)
  | markers (items : List String) (file opening closing : Option String)
      (format : OutputFormat)
  | info
  deriving DecidableEq, Repr

/-- What a list of arguments asks for. -/
inductive Invocation where
  | run (level : Level) (structured : Bool) (command : Command)
  | help
  | version
  deriving DecidableEq, Repr

namespace CommandLine

/-- An option as it is known in some place. -/
inductive OptionName where
  | logLevel
  | structuredLogs
  | file
  | format
  | plainClasses
  | opening
  | closing
  | help
  | version
  deriving DecidableEq, Repr

namespace OptionName

/-- Whether a value belongs to the option. -/
def takesValue : OptionName → Bool
  | .logLevel => true
  | .file => true
  | .format => true
  | .opening => true
  | .closing => true
  | _ => false

/-- Whether a text is a value of the option. -/
def accepts : OptionName → String → Bool
  | .logLevel, value => (Level.ofText? value).isSome
  | .format, value => (OutputFormat.ofText? value).isSome
  | .file, value => !value.isEmpty
  | _, _ => true

/-- The long name, without its dashes. -/
def long : OptionName → String
  | .logLevel => "log-level"
  | .structuredLogs => "structured-logs"
  | .file => "file"
  | .format => "format"
  | .plainClasses => "plain-classes"
  | .opening => "open"
  | .closing => "close"
  | .help => "help"
  | .version => "version"

/-- The one-letter name, if there is one. -/
def short? : OptionName → Option Char
  | .file => some 'f'
  | .help => some 'h'
  | .version => some 'V'
  | _ => none

end OptionName

/-- The options of one place with their values, and what stands between them. -/
structure Given where
  options : List (OptionName × String) := []
  values : List String := []
  deriving DecidableEq, Repr

namespace Given

/-- Adds an option with its value, unless it was given before or the value is none of
its values. -/
def addOption? (g : Given) (name : OptionName) (value : String) : Option Given :=
  if !name.accepts value || g.options.any fun o => o.1 == name then none
  else some { g with options := g.options ++ [(name, value)] }

def addValue (g : Given) (value : String) : Given := { g with values := g.values ++ [value] }

def get? (g : Given) (name : OptionName) : Option String :=
  (g.options.find? fun o => o.1 == name).map Prod.snd

def has (g : Given) (name : OptionName) : Bool := (g.get? name).isSome

end Given

/-- One argument, seen on its own. -/
inductive Argument where
  /-- `--` -/
  | separator
  /-- A long option, with a value if `=` follows its name. -/
  | long (name : String) (value : Option String)
  /-- A one-letter option with what is attached to it. -/
  | short (letter : Char) (attached : List Char)
  | value (t : String)
  deriving DecidableEq, Repr

namespace Argument

/-- The kind of an argument. -/
def ofText (t : String) : Argument :=
  match t.toList with
  | ['-', '-'] => .separator
  | '-' :: '-' :: rest =>
    let name := String.ofList (rest.takeWhile (· ≠ '='))
    match rest.dropWhile (· ≠ '=') with
    | [] => .long name none
    | _ :: assigned => .long name (some (String.ofList assigned))
  | '-' :: letter :: attached => .short letter attached
  | _ => .value t

end Argument

/-- What is left of the arguments after a command's name, with the options before it. -/
inductive Scanned where
  | done (g : Given)
  | command (g : Given) (name : String) (rest : List String)
  | help
  | version
  deriving DecidableEq, Repr

/-- An option among the arguments, with its value if one is attached. What follows the
letter of an option without a value is another option, and is not looked at here. -/
def attached? (known : List OptionName) : Argument → Option (OptionName × Option String)
  | .long name value => (known.find? fun o => o.long == name).map fun o => (o, value)
  | .short letter attached =>
    (known.find? fun o => o.short? == some letter).map fun o =>
      (o, match o.takesValue, attached with
        | false, _ => none
        | true, [] => none
        | true, '=' :: value => some (String.ofList value)
        | true, value => some (String.ofList value))
  | _ => none

/-- What may stand between the options of a place. -/
inductive Operand where
  | nothing
  /-- Any values. -/
  | values
  /-- The name of a command, which ends the place. -/
  | command (names : List String)
  deriving DecidableEq, Repr

/-- Reads the arguments of one place, of which `known` are the options. -/
def scan (known : List OptionName) (operand : Operand) (g : Given) :
    List String → Option Scanned
  | [] => some (.done g)
  | arg :: rest =>
    match Argument.ofText arg with
    | .value t =>
      match operand with
      | .nothing => none
      | .values => scan known operand (g.addValue t) rest
      | .command names => if names.contains t then some (.command g t rest) else none
    | .separator =>
      if operand = .values then some (.done { g with values := g.values ++ rest })
      else if rest.isEmpty then some (.done g)
      else none
    | a =>
      match attached? known a with
      | none => none
      | some (.help, none) => some .help
      | some (.version, none) => some .version
      | some (name, some value) =>
        if name.takesValue then do scan known operand (← g.addOption? name value) rest
        else none
      | some (name, none) =>
        if name.takesValue then
          match rest with
          | [] => none
          | next :: rest =>
            match Argument.ofText next with
            | .value value => do scan known operand (← g.addOption? name value) rest
            | _ => none
        else do scan known operand (← g.addOption? name "") rest

/-- The options that are known everywhere. -/
def everywhere : List OptionName := [.logLevel, .structuredLogs, .help]

/-- The level of an option, if it is given. -/
def levelOf? (g : Given) : Option Level := (g.get? .logLevel).bind Level.ofText?

/-- The format of an option; text if it is not given. -/
def formatOf (g : Given) : OutputFormat :=
  ((g.get? .format).bind OutputFormat.ofText?).getD .text

/-- The options of a command. -/
def knownOf : String → List OptionName
  | "tokenize" => everywhere ++ [.file, .format, .plainClasses]
  | "markers" => everywhere ++ [.file, .opening, .closing, .format]
  | _ => everywhere

/-- What a command takes between its options. -/
def operandOf : String → Operand
  | "tokenize" => .values
  | "markers" => .values
  | _ => .nothing

/-- The command of a name with its options and values. -/
def commandOf (name : String) (g : Given) : Command :=
  match name with
  | "tokenize" => .tokenize g.values (g.get? .file) (formatOf g) (g.has .plainClasses)
  | "markers" =>
    .markers g.values (g.get? .file) (g.get? .opening) (g.get? .closing) (formatOf g)
  | _ => .info

/-- The names of all commands. -/
def commandNames : List String := ["tokenize", "markers", "info", "help"]

/-- Whether names after `help` lead to something there is help on: to nothing further, or
to one command. -/
def hasHelp : List String → Bool
  | [] => true
  | [name] => commandNames.contains name
  | _ => false

/-- What a list of arguments asks for; `none` when it is refused. -/
def parse? (args : List String) : Option Invocation := do
  match ← scan (everywhere ++ [.version]) (.command commandNames) {} args with
  | .done _ => none
  | .help => return .help
  | .version => return .version
  | .command _ "help" names => if hasHelp names then return .help else none
  | .command before name rest =>
    match ← scan (knownOf name) (operandOf name) {} rest with
    | .done after =>
      return .run (((levelOf? after).or (levelOf? before)).getD .warning)
        (before.has .structuredLogs || after.has .structuredLogs) (commandOf name after)
    | .help => return .help
    | .version => return .version
    | .command _ _ _ => none

end CommandLine
end SearchMarkup
