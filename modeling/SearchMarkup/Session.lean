/-
# Highlighting a query while it is typed

Every change of the input gets a revision, one more than the last. A highlight may be
computed elsewhere and delivered late, twice or never; it is shown only if its revision
is the latest and it is not shown already.

| delivered revision | outcome | counted as |
| --- | --- | --- |
| 0, or above the latest | refused, never issued | `unknown` |
| below the latest, or shown already | refused, stale | `stale` |
| the latest | shown | `applied` |

The revisions that were superseded last are remembered, oldest first.

Revisions and counts are words, and there are only so many of them. Each action that adds
to one takes an `Overflow` and faults, if arithmetic is checked, where no word is left.
-/

import SearchMarkup.Query.Lexer
import SearchMarkup.Word

namespace SearchMarkup

/-- The number of an input state; 0 is never issued. -/
abbrev Revision := UInt64

namespace Revision

/-- `r` and the number. -/
def display (r : Revision) : String := "r" ++ toString r.toNat

end Revision

/-- The tokens of the query at a revision. -/
structure Highlight where
  revision : Revision
  tokens : TokenSequence
  deriving DecidableEq, Repr

namespace Highlight

/-- The highlight of a text, computed outside any session. -/
def compute (revision : Revision) (t : Text) (s : ScanSettings) : Logged Highlight := do
  let (tokens, _) ← ({ settings := s } : Lexer).tokenize t
  return ⟨revision, tokens⟩

end Highlight

/-- What a session has seen so far. -/
structure SessionMetrics where
  issued : UInt64 := 0
  applied : UInt64 := 0
  stale : UInt64 := 0
  unknown : UInt64 := 0
  deriving DecidableEq, Repr

/-- The state of one input field. -/
structure Session where
  lexer : Lexer
  latest : Revision := 0
  current : Option Highlight := none
  superseded : List Revision := []
  metrics : SessionMetrics := {}
  deriving DecidableEq, Repr

namespace Session

/-- A session that has seen nothing. -/
def start (s : ScanSettings) : Session := { lexer := { settings := s } }

/-- The history with one more superseded revision; the oldest gives way. -/
def remember (history : List Revision) (r : Revision) : List Revision :=
  (if history.length = Limits.supersededHistory then history.drop 1 else history) ++ [r]

/-- Issues the revision of a new input state. -/
def begin (o : Overflow) (s : Session) : Option (Revision × Session) := do
  let superseded := if s.latest = 0 then s.superseded else remember s.superseded s.latest
  let latest ← o.next? s.latest
  let issued ← o.next? s.metrics.issued
  return (latest,
    { s with
      latest := latest
      superseded := superseded
      metrics := { s.metrics with issued := issued } })

/-- Computes the highlight of a text for a revision, and shows nothing. -/
def complete (s : Session) (r : Revision) (t : Text) : Logged (Highlight × Session) := do
  let (tokens, lexer) ← s.lexer.tokenize t
  return (⟨r, tokens⟩, { s with lexer := lexer })

/-- Shows a highlight. -/
def install (o : Overflow) (s : Session) (h : Highlight) : Faulting Session := do
  let applied ← o.next? s.metrics.applied
  Logged.tell [((Event.success .resultApplied "Highlight applied").withValue "revision"
    (Revision.display h.revision)).withCount "tokens" h.tokens.tokens.length]
  return { s with current := some h, metrics := { s.metrics with applied := applied } }

/-- Shows a highlight if its revision is the latest and not shown yet. -/
def apply (o : Overflow) (s : Session) (h : Highlight) : Faulting (Bool × Session) :=
  let r := h.revision
  if r = 0 ∨ s.latest < r then do
    let unknown ← o.next? s.metrics.unknown
    Logged.tell [((Event.debug .unknownRevision
      "Result for a revision that was never issued").withValue
        "revision" (Revision.display r)).withValue "latest" (Revision.display s.latest)]
    return (false, { s with metrics := { s.metrics with unknown := unknown } })
  else if r < s.latest ∨ s.current.map Highlight.revision = some r then do
    let stale ← o.next? s.metrics.stale
    Logged.tell [(((Event.debug .staleResult "Discarded stale highlight result").withValue
      "revision" (Revision.display r)).withValue "latest" (Revision.display s.latest)).withValue
        "remembered" (if s.superseded.contains r then "true" else "false")]
    return (false, { s with metrics := { s.metrics with stale := stale } })
  else do
    let s ← s.install o h
    return (true, s)

/-- Issues a revision for a text, computes its highlight and shows it. -/
def onInput (o : Overflow) (s : Session) (t : Text) : Faulting (Highlight × Session) := do
  let (r, s) ← s.begin o
  let (h, s) ← s.complete r t
  let s ← s.install o h
  return (h, s)

/-- Whether a revision is the latest one issued. -/
def isLatest (s : Session) (r : Revision) : Bool := r != 0 && r == s.latest

/-! ## What each action does -/

variable {o : Overflow} {s s' : Session} {r : Revision} {h : Highlight}

/-- A revision is issued if one is left, and the count of them has room. -/
theorem begin_eq_some_iff :
    s.begin o = some (r, s') ↔
      o.next? s.latest = some r ∧ ∃ n, o.next? s.metrics.issued = some n ∧
        s' = { s with
          latest := r
          superseded := if s.latest = 0 then s.superseded else remember s.superseded s.latest
          metrics := { s.metrics with issued := n } } := by
  simp only [begin, Option.pure_def, Option.bind_eq_bind, Option.bind_eq_some_iff,
    Option.some.injEq, Prod.mk.injEq]
  constructor
  · rintro ⟨r', hr, n, hn, rfl, rfl⟩
    exact ⟨hr, n, hn, rfl⟩
  · rintro ⟨hr, n, hn, rfl⟩
    exact ⟨r, hr, n, hn, rfl, rfl⟩

/-- A revision that is issued is the latest. -/
theorem latest_of_begin (hbegin : s.begin o = some (r, s')) : s'.latest = r := by
  obtain ⟨-, n, -, rfl⟩ := begin_eq_some_iff.1 hbegin
  rfl

/-- Issuing a revision shows nothing. -/
theorem current_of_begin (hbegin : s.begin o = some (r, s')) : s'.current = s.current := by
  obtain ⟨-, n, -, rfl⟩ := begin_eq_some_iff.1 hbegin
  rfl

/-- Issuing a revision leaves the count of highlights shown as it is. -/
theorem applied_of_begin (hbegin : s.begin o = some (r, s')) :
    s'.metrics.applied = s.metrics.applied := by
  obtain ⟨-, n, -, rfl⟩ := begin_eq_some_iff.1 hbegin
  rfl

/-- A highlight is shown and counted. -/
@[simp] theorem value?_install (o : Overflow) (s : Session) (h : Highlight) :
    (s.install o h).value? = (o.next? s.metrics.applied).map fun n =>
      { s with current := some h, metrics := { s.metrics with applied := n } } :=
  Faulting.value?_tell_return ..

/-- What is typed is shown under the revision that is issued for it. -/
theorem onInput_eq_some_iff {t : Text} :
    (s.onInput o t).value? = some (h, s') ↔
      ∃ r s₁, s.begin o = some (r, s₁) ∧ (s₁.complete r t).value.1 = h ∧
        ((s₁.complete r t).value.2.install o h).value? = some s' := by
  simp only [onInput, Faulting.value?_bind, Faulting.value?_lift, Faulting.value?_lift_option,
    Faulting.value?_pure, Option.bind_some, Option.bind_eq_some_iff, Option.some.injEq,
    Prod.mk.injEq]
  constructor
  · rintro ⟨⟨r, s₁⟩, hbegin, s₂, hinstall, rfl, rfl⟩
    exact ⟨r, s₁, hbegin, rfl, hinstall⟩
  · rintro ⟨r, s₁, hbegin, rfl, hinstall⟩
    exact ⟨(r, s₁), hbegin, s', hinstall, rfl, rfl⟩

end Session
end SearchMarkup
