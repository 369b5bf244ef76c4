/-
# The application

An application has an environment, and two things that are set at most once: the journal
settings and the journal. Until there is a journal, events are dropped; until there are
settings, those of the environment hold.

`setUp` sets the settings first and then the journal; it fails at whichever is set
already, and what it has set by then stays.
-/

import SearchMarkup.Journal.Buffer
import SearchMarkup.Settings

namespace SearchMarkup

/-- The state of an application. -/
structure Application where
  environment : Environment := []
  /-- The moment events are recorded at. -/
  moment : Moment := {}
  settings : Option JournalSettings := none
  journal : Option Journal := none
  delivered : Delivered := {}
  deriving DecidableEq, Repr

/-- Why something could not be set. -/
inductive SetFault where
  | settingsPresent
  | journalPresent
  deriving DecidableEq, Repr

namespace SetFault

def message : SetFault → String
  | .settingsPresent => "Runtime preferences already initialized"
  | .journalPresent => "Global logger already initialized"

end SetFault

namespace Application

/-- The journal settings that hold. -/
def journalSettings (p : Application) : JournalSettings :=
  p.settings.getD (.ofEnvironment p.environment)

/-- The level a journal made from the settings is kept at: that of the settings, but
never below the floor. -/
def level (p : Application) : Level := p.journalSettings.level.max Level.floor

/-- Passes an event to the journal. -/
def log (p : Application) (e : Event) : Application :=
  match p.journal with
  | none => p
  | some j => { p with delivered := j.deliver p.moment e p.delivered }

/-- Passes events to the journal, in order. -/
def logAll (p : Application) (es : List Event) : Application := es.foldl log p

/-- Reporting does not change the journal it goes to. -/
@[simp] theorem journal_log (p : Application) (e : Event) : (p.log e).journal = p.journal := by
  unfold log
  split <;> rfl

/-- The events that get past the journal; without a journal none does. -/
def admitted (p : Application) (es : List Event) : List Event :=
  match p.journal with
  | none => []
  | some j => es.filter fun e => j.admits e.level

/-- **Only what gets past the journal is delivered.** -/
theorem logAll_admitted (p : Application) (es : List Event) :
    p.logAll (p.admitted es) = p.logAll es := by
  induction es generalizing p with
  | nil =>
    unfold admitted
    split <;> rfl
  | cons e es ih =>
    have hlater := ih (p.log e)
    have hsame : (p.log e).admitted es = p.admitted es := by rw [admitted, journal_log, admitted]
    rw [hsame] at hlater
    have hcons : p.logAll (e :: es) = (p.log e).logAll es := rfl
    rw [hcons, ← hlater]
    cases hp : p.journal with
    | none => simp [admitted, log, hp]
    | some j =>
      by_cases he : j.admits e.level = true
      · simp [admitted, hp, he, logAll]
      · have hlog : p.log e = p := by
          obtain ⟨environment, moment, settings, journal, delivered⟩ := p
          obtain rfl : journal = some j := hp
          simp [log, Journal.deliver, he]
        simp [admitted, hp, he, hlog]

/-- A journal kept at debugging lets every event past. -/
theorem admitted_of_kept {p : Application} (h : p.journal.map Journal.kept = some .debug)
    (es : List Event) : p.admitted es = es := by
  obtain ⟨j, hj, hkept⟩ := Option.map_eq_some_iff.1 h
  have hall (l : Level) : j.admits l = true := by
    rw [Journal.admits, hkept]
    cases l <;> rfl
  simp [admitted, hj, hall]

/-- Takes the value of a result and passes its events to the journal. -/
def run {α : Type} (p : Application) (x : Logged α) : α × Application :=
  (x.value, p.logAll x.events)

/-- Writes a line to the console, past the journal. -/
def print (p : Application) (line : String) : Application :=
  { p with delivered := { p.delivered with lines := p.delivered.lines ++ [line] } }

/-- Sets the settings. -/
def setSettings (p : Application) (s : JournalSettings) : Option SetFault × Application :=
  match p.settings with
  | some _ => (some .settingsPresent, p)
  | none => (none, { p with settings := some s })

/-- Sets the journal. -/
def setJournal (p : Application) (j : Journal) : Option SetFault × Application :=
  match p.journal with
  | some _ => (some .journalPresent, p)
  | none => (none, { p with journal := some j })

/-- The journal that the settings ask for. -/
def configuredJournal (p : Application) : Journal where
  kept := p.level
  relayed := p.level
  sinks :=
    if p.journalSettings.console then
      [if p.journalSettings.structured then .jsonConsole p.level else .console p.level]
    else []

/-- Sets the settings, then the journal they ask for. -/
def setUp (p : Application) (s : JournalSettings) : Option SetFault × Application :=
  match p.setSettings s with
  | (some fault, p) => (some fault, p)
  | (none, p) =>
    match p.setJournal p.configuredJournal with
    | (some fault, p) => (some fault, p)
    | (none, p) =>
      (none, p.log ((Event.success .initialized "Global logging system initialized").withValue
        "min_level" p.level.name))

/-- Reports an error to the journal, or to the console when there is none. -/
def reportError (p : Application) (code : Code) (message : String) : Application :=
  match p.journal with
  | some _ => p.log (Event.error code message)
  | none => p.print ("[ERROR] " ++ code ++ " - " ++ message)

/-- A truth value in a summary. -/
def flagText (b : Bool) : String := if b then "true" else "false"

/-- The settings that hold, in words. -/
def settingsSummary (p : Application) : String :=
  let s := p.journalSettings
  "=== Logging Configuration ===\n"
    ++ "Minimum level: " ++ p.level.name ++ "\n"
    ++ "Security floor: " ++ Level.floor.name ++ "\n"
    ++ "Structured: " ++ flagText s.structured ++ "\n"
    ++ "Console: " ++ flagText s.console ++ "\n"
    ++ "Performance events: " ++ flagText s.timings ++ "\n"
    ++ "Buffer size: " ++ toString Limits.eventBuffer ++ "\n"
    ++ "Max message length: " ++ toString Limits.eventMessage ++ "\n"

/-- The state of the journal, in words. -/
def diagnostics (p : Application) : String :=
  "=== Logging System Diagnostics ===\n"
    ++ "Initialized: " ++ flagText p.journal.isSome ++ "\n"
    ++ (match p.journal with
        | none => ""
        | some j => "Service level: " ++ j.kept.name ++ "\n")
    ++ "\n" ++ p.settingsSummary

end Application
end SearchMarkup
