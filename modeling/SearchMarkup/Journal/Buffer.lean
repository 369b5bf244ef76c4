/-
# Event buffers and delivery

A buffer holds the last events it was given, at most `Limits.eventBuffer` of them,
oldest first.

A journal passes an event on in three steps, each of which may drop it: the journal
itself, the relay behind it, and each sink of the relay are kept at a level.
-/

import SearchMarkup.Codec.Journal

namespace SearchMarkup

/-- The last events, oldest first. -/
structure EventBuffer where
  events : List Event := []
  deriving DecidableEq, Repr

/-- How many events of each level a buffer holds. -/
structure EventSummary where
  total : Nat
  errors : Nat
  warnings : Nat
  infos : Nat
  debugs : Nat
  deriving DecidableEq, Repr

namespace EventBuffer

/-- Adds an event; the oldest gives way when the buffer is full. -/
def record (b : EventBuffer) (e : Event) : EventBuffer :=
  let n := b.events.length
  if Limits.eventBuffer ≤ n then ⟨b.events.drop (n - Limits.eventBuffer + 1) ++ [e]⟩
  else ⟨b.events ++ [e]⟩

/-- The event recorded last is the last one held. -/
theorem getLast?_record (b : EventBuffer) (e : Event) :
    (b.record e).events.getLast? = some e := by
  unfold record
  dsimp only
  split <;> simp

/-- A buffer never grows past its limit. -/
theorem length_record_le (b : EventBuffer) (e : Event) :
    (b.record e).events.length ≤ Limits.eventBuffer := by
  unfold record
  dsimp only
  split
  · next h =>
    have : 0 < Limits.eventBuffer := by decide
    simp only [List.length_append, List.length_drop, List.length_cons, List.length_nil]
    omega
  · next h =>
    simp only [List.length_append, List.length_cons, List.length_nil]
    omega

/-- The events with a code. -/
def withCode (b : EventBuffer) (c : Code) : List Event := b.events.filter fun e => e.code == c

/-- The events of an area. -/
def inCategory (b : EventBuffer) (category : String) : List Event :=
  b.events.filter fun e => e.entry.category == category

/-- How many events are held of each level. -/
def summary (b : EventBuffer) : EventSummary where
  total := b.events.length
  errors := b.events.countP fun e => e.level == .error
  warnings := b.events.countP fun e => e.level == .warning
  infos := b.events.countP fun e => e.level == .info
  debugs := b.events.countP fun e => e.level == .debug

end EventBuffer

/-- A place events are delivered to. -/
inductive Sink where
  /-- Lines for people, up to a level. -/
  | console (kept : Level)
  /-- Lines of JSON, up to a level. -/
  | jsonConsole (kept : Level)
  /-- The buffer, at every level. -/
  | buffer
  deriving DecidableEq, Repr

/-- What has been delivered: to the buffer, and as lines to the console. -/
structure Delivered where
  buffer : EventBuffer := {}
  lines : List String := []
  deriving DecidableEq, Repr

namespace Sink

/-- Delivers an event at a moment. -/
def deliver (s : Sink) (moment : Moment) (e : Event) (d : Delivered) : Delivered :=
  match s with
  | console kept =>
    if e.level.admittedAt kept then { d with lines := d.lines ++ [e.line] } else d
  | jsonConsole kept =>
    if e.level.admittedAt kept then { d with lines := d.lines ++ [e.jsonLine moment] } else d
  | buffer => { d with buffer := d.buffer.record e }

end Sink

/-- A journal with a relay to sinks. -/
structure Journal where
  kept : Level
  relayed : Level
  sinks : List Sink
  deriving DecidableEq, Repr

namespace Journal

/-- Whether events of a level get past the journal itself. -/
def admits (j : Journal) (l : Level) : Bool := l.admittedAt j.kept

/-- Passes on an event at a moment. -/
def deliver (j : Journal) (moment : Moment) (e : Event) (d : Delivered) : Delivered :=
  if j.admits e.level && e.level.admittedAt j.relayed then
    j.sinks.foldl (fun d s => s.deliver moment e d) d
  else d

/-- A journal that keeps everything up to a level in the buffer. -/
def buffered (kept : Level) : Journal := ⟨kept, .debug, [.buffer]⟩

end Journal
end SearchMarkup
