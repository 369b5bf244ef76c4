/-
# Setting an application up

The journal settings and the journal are set once at most. Two calls set them, and each
fails when it comes upon one that is set:

| call | settings | journal | what it does |
| --- | --- | --- | --- |
| `setJournal` | any | not set | sets the journal |
| `setJournal` | any | set | fails |
| `setUp` | not set | not set | sets both |
| `setUp` | set | any | fails |
| `setUp` | not set | set | sets the settings, and fails |

Whatever a call answers, the settings afterwards are those that were set, or else those
it asked for (`settings_call`). So the settings are those of the first `setUp` of a run,
even if it failed (`settings_calls`), and a call that fails changes something just when it
is that first one (`failed_call`). The journal is set by the one call that succeeds.
-/

import SearchMarkup.Application

namespace SearchMarkup
namespace Application

/-- A call that sets an application up. -/
inductive Call where
  | setUp (s : JournalSettings)
  | setJournal (j : Journal)
  deriving DecidableEq, Repr

/-- The settings that a call asks for. -/
def Call.settings? : Call → Option JournalSettings
  | .setUp s => some s
  | .setJournal _ => none

/-- What a call answers, and the application after it. -/
def call (p : Application) : Call → Option SetFault × Application
  | .setUp s => p.setUp s
  | .setJournal j => p.setJournal j

/-- The application after calls one by one. -/
def calls (p : Application) (cs : List Call) : Application := cs.foldl (fun p c => (p.call c).2) p

/-- What calls answer one by one. -/
def answers (p : Application) : List Call → List (Option SetFault)
  | [] => []
  | c :: cs => (p.call c).1 :: (p.call c).2.answers cs

/-- **What a call does.** It succeeds only if there is no journal yet, and then there is one;
if it fails, the settings it asked for are all it can leave behind. -/
theorem call_cases (p : Application) (c : Call) :
    ((p.call c).1 = none ∧ p.journal = none ∧ (p.call c).2.journal ≠ none ∧
        (p.call c).2.settings = p.settings.or c.settings?) ∨
      ((p.call c).1 ≠ none ∧ (p.call c).2 = { p with settings := p.settings.or c.settings? }) := by
  obtain ⟨environment, moment, settings, journal, delivered⟩ := p
  cases c with
  | setJournal j =>
    cases journal with
    | none => exact .inl ⟨rfl, rfl, nofun, by simp [call, setJournal, Call.settings?]⟩
    | some j' => exact .inr ⟨nofun, by simp [call, setJournal, Call.settings?]⟩
  | setUp s =>
    cases settings with
    | some s' => exact .inr ⟨nofun, rfl⟩
    | none =>
      cases journal with
      | none => exact .inl ⟨rfl, rfl, by simp [call, setUp, setSettings, setJournal], rfl⟩
      | some j => exact .inr ⟨nofun, rfl⟩

/-- The settings that were set first stay. -/
theorem settings_call (p : Application) (c : Call) :
    (p.call c).2.settings = p.settings.or c.settings? := by
  rcases call_cases p c with ⟨-, -, -, hsettings⟩ | ⟨-, hafter⟩
  · exact hsettings
  · rw [hafter]

/-- The settings after a run are those of the first call that asked for any, unless some
were set before. -/
theorem settings_calls (p : Application) (cs : List Call) :
    (p.calls cs).settings = p.settings.or (cs.findSome? Call.settings?) := by
  induction cs generalizing p with
  | nil => exact Option.or_none.symm
  | cons c cs ih =>
    have hcons : p.calls (c :: cs) = (p.call c).2.calls cs := rfl
    rw [hcons, ih, settings_call, Option.or_assoc, List.findSome?_cons]
    cases c.settings? <;> rfl

/-- Once there is a journal no call succeeds. -/
theorem countP_answers_of_journal {p : Application} (hp : p.journal ≠ none) (cs : List Call) :
    (p.answers cs).countP Option.isNone = 0 := by
  induction cs generalizing p with
  | nil => rfl
  | cons c cs ih =>
    rcases call_cases p c with ⟨-, hnone, -⟩ | ⟨hfails, hafter⟩
    · exact absurd hnone hp
    · have hjournal : (p.call c).2.journal ≠ none := by rw [hafter]; exact hp
      rw [answers, List.countP_cons_of_neg (by simpa using hfails), ih hjournal]

/-- Of all calls at most one succeeds. -/
theorem countP_answers_le_one (p : Application) (cs : List Call) :
    (p.answers cs).countP Option.isNone ≤ 1 := by
  induction cs generalizing p with
  | nil => exact Nat.zero_le 1
  | cons c cs ih =>
    rcases call_cases p c with ⟨hsucceeds, -, hjournal, -⟩ | ⟨hfails, -⟩
    · have hlater := countP_answers_of_journal hjournal cs
      rw [answers, List.countP_cons_of_pos (by simp [hsucceeds])]
      omega
    · rw [answers, List.countP_cons_of_neg (by simpa using hfails)]
      exact ih _

/-- **What a failed call leaves behind.** However an application was set up before, at most
one call of a run succeeds. One that fails leaves behind at most the settings it asked for:
it does when none were set at first, no call before it asked for any, and it does. -/
theorem failed_call (p : Application) (cs : List Call) :
    (p.answers cs).countP Option.isNone ≤ 1 ∧
      ∀ c, let q := p.calls cs
        (q.call c).1 ≠ none →
          (q.call c).2 = { q with settings := q.settings.or c.settings? } ∧
            ((q.call c).2 = q ↔
              p.settings ≠ none ∨ cs.findSome? Call.settings? ≠ none ∨ c.settings? = none) := by
  refine ⟨countP_answers_le_one p cs, ?_⟩
  intro c q hfails
  have hafter : (q.call c).2 = { q with settings := q.settings.or c.settings? } :=
    ((call_cases q c).resolve_left fun h => hfails h.1).2
  refine ⟨hafter, ?_⟩
  have hsame : (q.call c).2 = q ↔ q.settings.or c.settings? = q.settings := by
    rw [hafter]
    constructor
    · exact congrArg settings
    · intro h
      rw [h]
  have hq : q.settings = p.settings.or (cs.findSome? Call.settings?) := settings_calls p cs
  rw [hsame, hq]
  cases p.settings <;> cases cs.findSome? Call.settings? <;> simp

/-- The second of these calls fails and leaves its settings behind; the third, the same call,
fails too and finds them set. -/
theorem failed_call_again :
    let c : Call := .setUp ⟨true, false, .debug, true⟩
    let q := calls {} [.setJournal (.buffered .warning), c]
    (q.call c).1 ≠ none ∧ (q.call c).2 = q ∧
      (answers {} [.setJournal (.buffered .warning), c]).countP Option.isNone ≤ 1 := by
  intro c q
  obtain ⟨hcount, hfailed⟩ := failed_call {} [.setJournal (.buffered .warning), c]
  have hfails : (q.call c).1 ≠ none := by decide
  have hasked : [.setJournal (.buffered .warning), c].findSome? Call.settings? ≠ none := by decide
  exact ⟨hfails, (hfailed c hfails).2.2 (.inr (.inl hasked)), hcount⟩

/-- A failed call can change what is reported and how far: here timings were not reported
before it and are afterwards, and the level went from the default to debugging. -/
theorem settings_left_by_failed_call :
    let q := calls {} [.setJournal (.buffered .debug)]
    let r := q.call (.setUp ⟨true, true, .debug, true⟩)
    r.1 = some .journalPresent ∧ r.2.settings ≠ q.settings ∧
      q.journalSettings.timings = false ∧ r.2.journalSettings.timings = true ∧
      q.level = .info ∧ r.2.level = .debug := by
  decide

end Application
end SearchMarkup
