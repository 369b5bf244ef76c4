/-
# Running a command

A command takes its input from its arguments, from a file, or else from standard
input; a file outweighs the arguments. It writes its result to standard output, and
events and errors to standard error.

| exit | when |
| --- | --- |
| 0 | the command succeeded |
| 1 | its input could not be used |
| 2 | the arguments were refused |
-/

import SearchMarkup.Application
import SearchMarkup.Codec.Report
import SearchMarkup.Codec.SnippetInput
import SearchMarkup.CommandLine.Arguments
import SearchMarkup.CommandLine.Files
import SearchMarkup.Report.Vocabulary
import SearchMarkup.Text.Lines

namespace SearchMarkup

/-- What a command finds around it. -/
structure Surroundings where
  environment : Environment := []
  stdin : ByteArray := .empty
  files : Files := fun _ => .error .notFound
  moment : Moment := {}
  elapsed : Elapsed := {}

/-- Why a command failed. -/
inductive CommandFault where
  | unreadableFile (path : String) (fault : ReadFault)
  | unreadableStdin (fault : ReadFault)
  | badJson (fault : Json.Fault)
  | badTags (fault : TagFault)
  deriving DecidableEq, Repr

namespace CommandFault

def message : CommandFault → String
  | .unreadableFile path fault => "Cannot read '" ++ path ++ "': " ++ fault.message
  | .unreadableStdin fault => "Cannot read stdin: " ++ fault.message
  | .badJson fault => "Invalid JSON input: " ++ fault.message
  | .badTags fault => "Invalid marker tags: " ++ fault.message

def code : CommandFault → Code
  | .unreadableFile _ _ => .inputUnreadable
  | .unreadableStdin _ => .inputUnreadable
  | .badJson _ => .jsonUnreadable
  | .badTags fault => fault.code

end CommandFault

/-- The snippets of a JSON text; a text that is refused is also reported. -/
def readSnippetInput (t : Text) : Logged (Except CommandFault SnippetInput) :=
  match SnippetInput.parse? t with
  | .ok input => pure (.ok input)
  | .error fault =>
    ⟨.error (.badJson fault),
      [((Event.error .jsonUnreadable "Snippet input is not valid JSON").withCount "line"
        fault.line).withCount "column" fault.column]⟩

namespace CommandLine

/-- The text of a file, with reports on the attempt. -/
def readFile (w : Surroundings) (path : String) : Logged (Except CommandFault Text) :=
  let begun := (Event.info "Reading input").withValue "path" path
  match (w.files path).bind decodeText with
  | .ok t => ⟨.ok t, [begun]⟩
  | .error fault =>
    ⟨.error (.unreadableFile path fault),
      [begun, ((Event.error .inputUnreadable "Cannot read input file").withValue "path"
        path).withValue "error" fault.message]⟩

/-- The text of standard input. -/
def readStdin (w : Surroundings) : Except CommandFault Text :=
  (decodeText w.stdin).mapError .unreadableStdin

/-- The text a command reads when its arguments give no input. -/
def readSource (w : Surroundings) (file : Option String) : Logged (Except CommandFault Text) :=
  match file with
  | some path => readFile w path
  | none => pure (readStdin w)

/-- The queries of a command: arguments, or the lines of a text that are not blank. -/
def queriesOf (w : Surroundings) (queries : List String) (file : Option String) :
    Logged (Except CommandFault (List Text)) :=
  if file.isNone && !queries.isEmpty then pure (.ok (queries.map String.toList))
  else do
    match ← readSource w file with
    | .error fault => return .error fault
    | .ok t => return .ok (Text.nonBlankLines t)

/-- The snippets of a command: arguments, or a JSON text. -/
def snippetsOf (w : Surroundings) (items : List String) (file : Option String) :
    Logged (Except CommandFault SnippetInput) :=
  if file.isNone && !items.isEmpty then pure (.ok (.items (items.map String.toList)))
  else do
    match ← readSource w file with
    | .error fault => return .error fault
    | .ok t => readSnippetInput t

/-- A text with a line feed at its end. -/
def endLine (t : Text) : Text := if t.getLast? = some '\n' then t else t ++ ['\n']

/-- The reports on queries in a format. -/
def writeQueries (format : OutputFormat) (reports : List QueryReport) : Text :=
  endLine <| match format with
    | .json => (Json.list QueryReport.toJson reports).pretty
    | .html => ['\n'].intercalate (reports.map QueryReport.html)
    | .text => ['\n'].intercalate (reports.map QueryReport.text)

/-- The report on snippets in a format. -/
def writeSnippets (format : OutputFormat) (report : SnippetReport) : Text :=
  endLine <| match format with
    | .json => report.toJson.pretty
    | .html => report.html
    | .text => report.text

/-- Splits and renders snippets given in either form. -/
def highlightInput (s : Settings) (tags : MarkerTags) (timing : Timing) :
    SnippetInput → Logged SnippetReport
  | .items ts => highlightSnippets s tags timing ts
  | .document d => highlightDocument s tags timing d

/-- What a command writes to standard output. Tags are looked at before any input is
read. -/
def execute (w : Surroundings) (timing : Timing) :
    Command → Logged (Except CommandFault Text)
  | .info => pure (.ok (Vocabulary.report true ++ "\n").toList)
  | .tokenize queries file format plainClasses => do
    match ← queriesOf w queries file with
    | .error fault => return .error fault
    | .ok ts =>
      let s := Settings.ofEnvironment w.environment
      let s := if plainClasses then { s with render.classStyle := .plain } else s
      return .ok (writeQueries format (← highlightQueries s timing ts))
  | .markers items file opening closing format => do
    let s := Settings.ofEnvironment w.environment
    let tags := MarkerTags.ofTexts ((opening.map String.toList).getD s.marking.openTag)
      ((closing.map String.toList).getD s.marking.closeTag)
    match tags with
    | .error fault => return .error (.badTags fault)
    | .ok tags =>
      match ← snippetsOf w items file with
      | .error fault => return .error fault
      | .ok input => return .ok (writeSnippets format (← highlightInput s tags timing input))

/-- What a run leaves behind. -/
structure Outcome where
  exit : Nat
  stdout : Text := []
  stderr : List String := []
  deriving DecidableEq, Repr

/-- Runs a command with a journal kept at a level. -/
def runCommand (w : Surroundings) (level : Level) (structured : Bool) (c : Command) : Outcome :=
  let p : Application := { environment := w.environment, moment := w.moment }
  let s : JournalSettings :=
    { JournalSettings.ofEnvironment w.environment with
      structured := structured, console := true, level := level }
  let (_, p) := p.setUp s
  let p := p.log ((Event.info "qhl starting").withValue "version" Limits.version)
  let (result, p) := p.run (execute w ⟨w.elapsed, s.timings⟩ c)
  match result with
  | .ok output => { exit := 0, stdout := output, stderr := p.delivered.lines }
  | .error fault =>
    let p := p.log ((Event.error fault.code "Command failed").withValue "error" fault.message)
    let p := p.print ("Error: " ++ fault.message)
    { exit := 1, stderr := p.delivered.lines }

/-- How the tool is called, for people. -/
def usage : String :=
  "Usage: qhl [--log-level LEVEL] [--structured-logs] <tokenize|markers|info> [ARGS]...\n"

/-- Runs the tool. -/
def run (w : Surroundings) (args : List String) : Outcome :=
  match parse? args with
  | none => { exit := 2 }
  | some .help => { exit := 0, stdout := usage.toList }
  | some .version => { exit := 0, stdout := ("qhl " ++ Limits.version ++ "\n").toList }
  | some (.run level structured c) => runCommand w level structured c

end CommandLine
end SearchMarkup
