/-
# What an event buffer holds

Events come to a buffer in two ways, and what becomes of one is settled when it comes:

| event | is accepted |
| --- | --- |
| recorded past the journal | always |
| passed to the journal | if the journal, as it is kept then, and the relay admit its level |

A buffer that is never full would hold the events accepted since it was last cleared. The
buffer holds the end of that list: it drops one event for each that comes when it is full,
so what it holds is always the last `Limits.eventBuffer` of them
(`events_record_of_eq_rtake`). Neither a change of the journal's level nor a refused event
shows in it.

A journal may have other sinks besides. They see the same events, and the buffer does not
see them (`buffer_foldl_deliver`).
-/

import SearchMarkup.Journal.Buffer
import Mathlib.Data.List.DropRight
import Mathlib.Logic.Function.Iterate

namespace SearchMarkup

/-! ## Adding to a buffer -/

namespace EventBuffer

/-- **The last events and one more are the last events again.** -/
theorem events_record_of_eq_rtake {b : EventBuffer} {es : List Event}
    (h : b.events = es.rtake Limits.eventBuffer) (e : Event) :
    (b.record e).events = (es ++ [e]).rtake Limits.eventBuffer := by
  obtain ⟨n, hn⟩ : ∃ n, Limits.eventBuffer = n + 1 := ⟨999, rfl⟩
  rw [hn] at h
  rw [record, hn, h, List.rtake_concat_succ]
  by_cases hfull : n + 1 ≤ es.length
  · have hlength : (es.rtake (n + 1)).length = n + 1 := by
      rw [List.rtake, List.length_drop]
      omega
    have hdrop : es.length - (n + 1) + (n + 1 - (n + 1) + 1) = es.length - n := by omega
    rw [hlength, if_pos (Nat.le_refl _), List.rtake, List.drop_drop, hdrop, List.rtake]
  · have hall (k : Nat) (hk : es.length ≤ k) : es.rtake k = es := by
      rw [List.rtake, Nat.sub_eq_zero_of_le hk, List.drop_zero]
    rw [hall (n + 1) (by omega), hall n (by omega), if_neg hfull]

/-- Events that are picked out of a buffer are all that it holds of their kind. -/
theorem count_filter_events (b : EventBuffer) (p : Event → Bool) (e : Event) :
    (b.events.filter p).count e = if p e = true then b.events.count e else 0 := by
  by_cases he : p e = true
  · rw [if_pos he, List.count_filter he]
  · rw [if_neg he]
    exact List.count_eq_zero.2 fun hmem => he (List.of_mem_filter hmem)

/-- Each event is counted under its level. -/
theorem total_summary (b : EventBuffer) :
    b.summary.errors + b.summary.warnings + b.summary.infos + b.summary.debugs =
      b.events.length := by
  obtain ⟨es⟩ := b
  dsimp only [summary]
  induction es with
  | nil => rfl
  | cons e es ih =>
    simp only [List.countP_cons, List.length_cons]
    cases e.level <;> simp <;> omega

end EventBuffer

/-! ## Passing an event on -/

/-- A sink that is no buffer does not touch the buffer. -/
theorem Sink.buffer_deliver (s : Sink) (moment : Moment) (e : Event) (d : Delivered) :
    (s.deliver moment e d).buffer = if s = .buffer then d.buffer.record e else d.buffer := by
  cases s with
  | buffer => rfl
  | console kept =>
    rw [if_neg nofun, deliver]
    split <;> rfl
  | jsonConsole kept =>
    rw [if_neg nofun, deliver]
    split <;> rfl

/-- Each buffer among the sinks records the event; no other sink touches the buffer. -/
theorem Sink.buffer_foldl_deliver (sinks : List Sink) (moment : Moment) (e : Event)
    (d : Delivered) :
    (sinks.foldl (fun d s => s.deliver moment e d) d).buffer =
      (fun b : EventBuffer => b.record e)^[sinks.count .buffer] d.buffer := by
  induction sinks generalizing d with
  | nil => rfl
  | cons s sinks ih =>
    rw [List.foldl_cons, ih, buffer_deliver]
    by_cases hs : s = .buffer
    · rw [if_pos hs, hs, List.count_cons_self, Function.iterate_succ_apply]
    · rw [if_neg hs, List.count_cons_of_ne hs]

namespace Journal

/-- What a host can do with a journal and the buffer behind it. -/
inductive Act where
  /-- An event is passed to the journal, at a moment. -/
  | log (moment : Moment) (e : Event)
  /-- An event is recorded past the journal. -/
  | record (e : Event)
  /-- The journal is kept at another level. -/
  | keep (l : Level)
  /-- The buffer is emptied. -/
  | clear
  deriving DecidableEq, Repr

/-- The journal and what has been delivered, after an act. -/
def act (x : Journal × Delivered) : Act → Journal × Delivered
  | .log moment e => (x.1, x.1.deliver moment e x.2)
  | .record e => (x.1, { x.2 with buffer := x.2.buffer.record e })
  | .keep l => ({ x.1 with kept := l }, x.2)
  | .clear => (x.1, { x.2 with buffer := {} })

/-- The journal and what has been delivered, after acts one by one; at first nothing has. -/
def run (j : Journal) (as : List Act) : Journal × Delivered := as.foldl act (j, {})

/-- The level the journal is kept at after an act. -/
def Act.keeps (kept : Level) : Act → Level
  | .keep l => l
  | _ => kept

/-- The level the journal is kept at after acts. -/
def keptAfter (kept : Level) (as : List Act) : Level := as.foldl Act.keeps kept

/-- The event that an act brings to the buffer, if it is accepted. -/
def Act.accepted? (kept relayed : Level) : Act → Option Event
  | .log _ e => if e.level.rank ≤ kept.rank ∧ e.level.rank ≤ relayed.rank then some e else none
  | .record e => some e
  | .keep _ => none
  | .clear => none

/-- The events accepted in acts, in order; `kept` is the level the journal is kept at before
the first. -/
def accepted (kept relayed : Level) : List Act → List Event
  | [] => []
  | a :: as => (a.accepted? kept relayed).toList ++ accepted (a.keeps kept) relayed as

/-- The acts up to the last that emptied the buffer. -/
def untilClear (as : List Act) : List Act := as.rdropWhile (· ≠ .clear)

/-- The acts since the buffer was last emptied. -/
def sinceClear (as : List Act) : List Act := as.rtakeWhile (· ≠ .clear)

/-- The events accepted since the buffer was last emptied. -/
def acceptedSinceClear (j : Journal) (as : List Act) : List Event :=
  accepted (keptAfter j.kept (untilClear as)) j.relayed (sinceClear as)

variable {j : Journal} {as : List Act} {a : Act}

/-- Acts one after another are accepted as the level goes along. -/
theorem accepted_append (kept relayed : Level) (as bs : List Act) :
    accepted kept relayed (as ++ bs) =
      accepted kept relayed as ++ accepted (keptAfter kept as) relayed bs := by
  induction as generalizing kept with
  | nil => rfl
  | cons a as ih => simp [accepted, keptAfter, ih]

/-- When the buffer is emptied, nothing is left of what was accepted. -/
theorem acceptedSinceClear_concat_clear (j : Journal) (as : List Act) :
    j.acceptedSinceClear (as ++ [.clear]) = [] := by
  rw [acceptedSinceClear, sinceClear, List.rtakeWhile_concat_neg _ _ _ (by simp)]
  rfl

/-- Any other act adds what it brings to the buffer. -/
theorem acceptedSinceClear_concat (j : Journal) (as : List Act) (ha : a ≠ .clear) :
    j.acceptedSinceClear (as ++ [a]) = j.acceptedSinceClear as ++
      (a.accepted? (keptAfter j.kept as) j.relayed).toList := by
  have hkept : keptAfter (keptAfter j.kept (untilClear as)) (sinceClear as) =
      keptAfter j.kept as := by
    rw [keptAfter, keptAfter, ← List.foldl_append, untilClear, sinceClear,
      List.rdropWhile_append_rtakeWhile]
    rfl
  have huntil : untilClear (as ++ [a]) = untilClear as :=
    List.rdropWhile_concat_pos _ _ _ (by simpa using ha)
  have hsince : sinceClear (as ++ [a]) = sinceClear as ++ [a] :=
    List.rtakeWhile_concat_pos _ _ _ (by simpa using ha)
  rw [acceptedSinceClear, huntil, hsince, accepted_append, hkept]
  simp [acceptedSinceClear, accepted]

/-- Events that are recorded past the journal are accepted one after another. -/
theorem acceptedSinceClear_append_replicate (j : Journal) (as : List Act) (n : Nat) (e : Event) :
    j.acceptedSinceClear (as ++ List.replicate n (.record e)) =
      j.acceptedSinceClear as ++ List.replicate n e := by
  induction n with
  | zero => simp
  | succ n ih =>
    rw [List.replicate_succ', List.replicate_succ', ← List.append_assoc, ← List.append_assoc,
      acceptedSinceClear_concat _ _ (by simp), ih]
    rfl

/-- Acts are done one after another. -/
theorem run_concat (j : Journal) (as : List Act) (a : Act) :
    j.run (as ++ [a]) = act (j.run as) a := by
  rw [run, List.foldl_append]
  rfl

/-- Acts change nothing about a journal but the level it is kept at. -/
theorem fst_run (j : Journal) (as : List Act) :
    (j.run as).1 = { j with kept := keptAfter j.kept as } := by
  induction as using List.reverseRecOn with
  | nil => rfl
  | append_singleton as a ih =>
    rw [run_concat, keptAfter, List.foldl_append]
    cases a <;> simp [act, ih, Act.keeps, keptAfter]

/-- An event passed to a journal with one buffer is recorded if it is accepted. -/
theorem buffer_deliver (hone : j.sinks.count .buffer = 1) (moment : Moment) (e : Event)
    (d : Delivered) :
    (j.deliver moment e d).buffer =
      ((Act.log moment e).accepted? j.kept j.relayed).toList.foldl EventBuffer.record d.buffer := by
  have hadmitted : (j.admits e.level && e.level.admittedAt j.relayed) = true ↔
      e.level.rank ≤ j.kept.rank ∧ e.level.rank ≤ j.relayed.rank := by
    simp [admits, Level.admittedAt]
  by_cases h : e.level.rank ≤ j.kept.rank ∧ e.level.rank ≤ j.relayed.rank
  · rw [deliver, if_pos (hadmitted.2 h), Sink.buffer_foldl_deliver, hone, Act.accepted?, if_pos h]
    rfl
  · rw [deliver, if_neg (mt hadmitted.1 h), Act.accepted?, if_neg h]
    rfl

/-- **A buffer holds the last of the events accepted since it was emptied.** -/
theorem events_run (hone : j.sinks.count .buffer = 1) (as : List Act) :
    (j.run as).2.buffer.events = (j.acceptedSinceClear as).rtake Limits.eventBuffer := by
  induction as using List.reverseRecOn with
  | nil => exact (List.rtake_nil _).symm
  | append_singleton as a ih =>
    rw [run_concat]
    by_cases ha : a = .clear
    · rw [ha, acceptedSinceClear_concat_clear]
      exact (List.rtake_nil _).symm
    rw [acceptedSinceClear_concat _ _ ha]
    cases a with
    | clear => exact absurd rfl ha
    | keep l =>
      rw [Act.accepted?, Option.toList_none, List.append_nil]
      exact ih
    | record e => exact EventBuffer.events_record_of_eq_rtake ih e
    | log moment e =>
      have hbuffer := buffer_deliver (j := (j.run as).1) (by rwa [fst_run]) moment e (j.run as).2
      rw [act, hbuffer, fst_run]
      dsimp only
      cases (Act.log moment e).accepted? (keptAfter j.kept as) j.relayed with
      | none =>
        rw [Option.toList_none, List.append_nil]
        exact ih
      | some e' => exact EventBuffer.events_record_of_eq_rtake ih e'

/-- **What a buffer holds.** After any acts it holds the last of the events accepted since it
was emptied, all of them if there are no more than it has room for. Its summary counts each
event it holds under one level, and the events of a code or of an area are those of that kind
among the events it holds, in the same order. -/
theorem buffer_holds_last (j : Journal) (hone : j.sinks.count .buffer = 1) (as : List Act) :
    let b := (j.run as).2.buffer
    let es := j.acceptedSinceClear as
    (b.events <:+ es ∧ b.events.length = min es.length Limits.eventBuffer) ∧
      (b.summary.errors + b.summary.warnings + b.summary.infos + b.summary.debugs =
        b.summary.total ∧ b.summary.total = b.events.length) ∧
      (∀ c, (b.withCode c).Sublist b.events ∧
        ∀ e, (b.withCode c).count e = if e.code = c then b.events.count e else 0) ∧
      ∀ category, (b.inCategory category).Sublist b.events ∧
        ∀ e, (b.inCategory category).count e =
          if e.entry.category = category then b.events.count e else 0 := by
  intro b es
  have hevents : b.events = es.rtake Limits.eventBuffer := events_run hone as
  refine ⟨⟨?_, ?_⟩, ⟨b.total_summary, rfl⟩, fun c => ⟨List.filter_sublist, fun e => ?_⟩,
    fun category => ⟨List.filter_sublist, fun e => ?_⟩⟩
  · rw [hevents]
    exact List.drop_suffix ..
  · rw [hevents, List.rtake, List.length_drop]
    omega
  · simpa [EventBuffer.withCode] using b.count_filter_events (fun e => e.code == c) e
  · simpa [EventBuffer.inCategory] using
      b.count_filter_events (fun e => e.entry.category == category) e

/-- What a buffer holds gives way to as many events as it has room for. -/
theorem events_run_append_replicate (hone : j.sinks.count .buffer = 1) (as : List Act)
    (e : Event) :
    (j.run (as ++ List.replicate Limits.eventBuffer (.record e))).2.buffer.events =
      List.replicate Limits.eventBuffer e := by
  rw [events_run hone, acceptedSinceClear_append_replicate, List.rtake, List.length_append,
    List.length_replicate, Nat.add_sub_cancel, List.drop_left]

/-- Here the journal is kept at warnings and then at errors, and the buffer comes to hold as much
as it can. The remark before it was emptied and the second warning were not accepted since; the
first warning was, and has given way to the last of the details, which are recorded past the
journal. -/
theorem buffer_holds_last_accepted :
    let remark := Event.info "begun"
    let warning := Event.warning .largeQuery "long"
    let detail := Event.debug .openQuote "open"
    let details := List.replicate Limits.eventBuffer detail
    let j : Journal := ⟨.info, .warning, [.console .debug, .buffer]⟩
    let before : List Act := [.record remark, .clear, .log {} remark, .log {} warning,
      .keep .error, .log {} warning]
    let as := before ++ List.replicate Limits.eventBuffer (.record detail)
    let b := (j.run as).2.buffer
    j.sinks.count .buffer = 1 ∧ j.acceptedSinceClear as = warning :: details ∧
      b.events <:+ j.acceptedSinceClear as ∧ b.events = details ∧
      b.summary.total = b.events.length ∧ (b.inCategory "Lexical").Sublist b.events := by
  intro remark warning detail details j before
  have hone : j.sinks.count .buffer = 1 := by decide
  have hbefore : j.acceptedSinceClear before = [warning] := rfl
  have hes := j.acceptedSinceClear_append_replicate before Limits.eventBuffer detail
  rw [hbefore, List.singleton_append] at hes
  have hevents := events_run_append_replicate hone before detail
  obtain ⟨⟨hsuffix, -⟩, ⟨-, htotal⟩, -, hcategory⟩ :=
    buffer_holds_last j hone (before ++ List.replicate Limits.eventBuffer (.record detail))
  exact ⟨hone, hes, hsuffix, hevents, htotal, (hcategory "Lexical").1⟩

end Journal
end SearchMarkup
