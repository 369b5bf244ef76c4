/-
# The line of an event

The line that people read (`Event.line`) puts the parts of an event one after the other as they
are.  So it is one line exactly if the parts from outside are: the code, the message as it is
stored, and the values with their names (`Event.isOneLine_line_iff`).

| report of the extractor | its line |
| --- | --- |
| an open tag that nothing closes | is one line |
| a close tag without an open tag | is one line exactly if the unmarked text around it is |
| about a list of snippets | is one line |

A snippet with a line break can thus write a line of its choice into a journal
(`Extractor.stray_close_tag_writes_second_line`).  The JSON line of an event has its texts
escaped, and is one line whatever they are (`Event.isOneLine_jsonLine`).
-/

import SearchMarkup.Codec.Journal
import SearchMarkup.Marking.Extractor
import SearchMarkup.Proofs.Journal.Building
import SearchMarkup.Proofs.Marking.Decomposition

namespace SearchMarkup

/-- A text without a line break. -/
def Text.IsUnbroken (t : Text) : Prop := ∀ c ∈ t, c ≠ '\n' ∧ c ≠ '\r'

/-- A string without a line break. -/
def IsOneLine (s : String) : Prop := Text.IsUnbroken s.toList

instance : DecidablePred Text.IsUnbroken := fun t =>
  decidable_of_iff (t.all (fun c => c != '\n' && c != '\r') = true)
    (by simp [Text.IsUnbroken])

instance : DecidablePred IsOneLine := fun s =>
  inferInstanceAs (Decidable (Text.IsUnbroken s.toList))

section

variable {s t sep : String} {l : List String}

/-- A text is one line if its parts are. -/
@[simp] theorem isOneLine_append : IsOneLine (s ++ t) ↔ IsOneLine s ∧ IsOneLine t := by
  rw [IsOneLine, String.toList_append]
  exact List.forall_mem_append

/-- Texts joined by one that breaks no line are one line if each is. -/
theorem isOneLine_intercalate (hsep : IsOneLine sep) :
    IsOneLine (sep.intercalate l) ↔ ∀ s ∈ l, IsOneLine s := by
  induction l with
  | nil => simp [String.intercalate_nil, IsOneLine, Text.IsUnbroken]
  | cons s l ih =>
    rw [List.forall_mem_cons]
    by_cases hl : l = []
    · simp [hl, String.intercalate_singleton]
    · rw [String.intercalate_cons_of_ne_nil hl, isOneLine_append, isOneLine_append, ih]
      simp [hsep]

/-- Digits break no line. -/
theorem Text.isUnbroken_digits (n : Nat) : IsUnbroken (Nat.toDigits 10 n) := by
  intro c hc
  have hdigit : c.isDigit = true := Nat.isDigit_of_mem_toDigits (by decide) (by decide) hc
  constructor <;>
  · rintro rfl
    exact absurd hdigit (by decide)

/-- A number is one line. -/
theorem isOneLine_toString (n : Nat) : IsOneLine (toString n) := by
  have htext : toString n = String.ofList (Nat.toDigits 10 n) := rfl
  rw [IsOneLine, htext, String.toList_ofList]
  exact Text.isUnbroken_digits n

/-- The name of a level is one line. -/
theorem isOneLine_levelName (l : Level) : IsOneLine l.name := by
  cases l <;> decide

/-- A place is shown on one line. -/
theorem isOneLine_display (p : Position) : IsOneLine p.display := by
  rw [Position.display, isOneLine_append, isOneLine_append]
  exact ⟨⟨isOneLine_toString _, by decide⟩, isOneLine_toString _⟩

end

namespace Event

variable {e : Event}

/-- Named values are on one line exactly if each name and each value is. -/
theorem isOneLine_values {l : List (String × String)} :
    IsOneLine (", ".intercalate (l.map fun (n, v) => n ++ "=" ++ v)) ↔
      ∀ p ∈ l, IsOneLine p.1 ∧ IsOneLine p.2 := by
  have hequals : IsOneLine "=" := by decide
  rw [isOneLine_intercalate (by decide), List.forall_mem_map]
  simp only [isOneLine_append, hequals, and_true]

/-- **The line of an event is one line exactly if its texts are.** -/
theorem isOneLine_line_iff :
    IsOneLine e.line ↔ IsOneLine e.code ∧ IsOneLine e.message ∧
      ∀ p ∈ e.context, IsOneLine p.1 ∧ IsOneLine p.2 := by
  obtain ⟨level, code, message, span, context⟩ := e
  have hsigns : IsOneLine "[" ∧ IsOneLine "] " ∧ IsOneLine " - " := by decide
  have hvalueSigns : IsOneLine " (" ∧ IsOneLine ")" := by decide
  have hat : IsOneLine " at " := by decide
  have hnone : IsOneLine "" := by decide
  have hvalues : IsOneLine (if context.isEmpty then "" else
      " (" ++ ", ".intercalate (context.map fun (n, v) => n ++ "=" ++ v) ++ ")") ↔
      ∀ p ∈ context, IsOneLine p.1 ∧ IsOneLine p.2 := by
    cases context with
    | nil => exact iff_of_true hnone nofun
    | cons p context =>
      rw [List.isEmpty_cons, if_neg Bool.false_ne_true, isOneLine_append, isOneLine_append,
        isOneLine_values]
      simp only [hvalueSigns, true_and, and_true]
  cases span <;>
    simp only [line, isOneLine_append, hsigns, isOneLine_levelName, hnone, hat, isOneLine_display,
      hvalues, true_and, and_true, and_assoc]

/-- A value on one line leaves the line one. -/
theorem isOneLine_line_withValue {name value : String} (h : IsOneLine e.line)
    (hname : IsOneLine name) (hvalue : IsOneLine value) :
    IsOneLine (e.withValue name value).line := by
  obtain ⟨hcode, hmessage, hvalues⟩ := isOneLine_line_iff.1 h
  refine isOneLine_line_iff.2 ⟨hcode, hmessage, fun p hp => ?_⟩
  rcases eq_or_mem_of_mem_insertValue hp with rfl | hp
  · exact ⟨hname, hvalue⟩
  · exact hvalues p hp

/-- A named number leaves a line one line. -/
theorem isOneLine_line_withCount {name : String} (h : IsOneLine e.line) (hname : IsOneLine name)
    (n : Nat) : IsOneLine (e.withCount name n).line :=
  isOneLine_line_withValue h hname (isOneLine_toString n)

end Event

/-! ## The reports of the extractor -/

namespace Extraction

variable {tags : MarkerTags} {t u : Text} {first : Bool}

/-- A close tag is stray in the text it was looked for in. -/
theorem mem_strayCloses_iff : .strayClose u ∈ strayCloses tags t ↔
    tags.opening ≠ tags.closing ∧ u = t ∧ tags.closing <:+: u := by
  rw [strayCloses]
  split
  · next h =>
    rw [Text.contains_iff] at h
    rw [List.mem_singleton, TagFinding.strayClose.injEq]
    exact ⟨fun hu => ⟨h.1, hu, hu ▸ h.2⟩, fun hu => hu.2.1⟩
  · next h =>
    rw [Text.contains_iff] at h
    exact iff_of_false List.not_mem_nil fun ⟨hne, hu, hin⟩ => h ⟨hne, hu ▸ hin⟩

/-- Whether a close tag is reported in an unmarked text, which stands in the segments. -/
def StrayIn (tags : MarkerTags) (u : Text) (l : List Segment) : Prop :=
  tags.opening ≠ tags.closing ∧ ⟨false, u⟩ ∈ l ∧ tags.closing <:+: u

/-- An unmarked segment in front adds what is stray in it. -/
theorem mem_findings_consUnmarked_iff {x : Extraction}
    (h : .strayClose u ∈ x.findings ↔ StrayIn tags u x.segments) :
    .strayClose u ∈ (consUnmarked tags t x).findings ↔
      StrayIn tags u (consUnmarked tags t x).segments := by
  simp only [consUnmarked, List.mem_append, h, mem_strayCloses_iff, StrayIn, List.mem_cons,
    Segment.mk.injEq, true_and]
  tauto

/-- What is stray in the rest of a text is so in its segment. -/
theorem mem_findings_ofRemainder_iff :
    .strayClose u ∈ (ofRemainder tags first t).findings ↔
      StrayIn tags u (ofRemainder tags first t).segments := by
  have hnone : .strayClose u ∈ (⟨[], []⟩ : Extraction).findings ↔
      StrayIn tags u (⟨[], []⟩ : Extraction).segments := by simp [StrayIn]
  rw [ofRemainder]
  split
  · exact hnone
  · exact mem_findings_consUnmarked_iff hnone

/-- **A close tag is reported in exactly the unmarked texts that hold one.** -/
theorem mem_findings_extractFrom_iff (tags : MarkerTags) (first : Bool) (offset : Nat)
    (t u : Text) :
    .strayClose u ∈ (extractFrom tags first offset t).findings ↔
      StrayIn tags u (extractFrom tags first offset t).segments := by
  fun_induction extractFrom tags first offset t with
  | case1 first offset t hn => exact mem_findings_ofRemainder_iff
  | case2 first offset t before inner ho hn last =>
    rw [List.mem_cons]
    simpa using mem_findings_ofRemainder_iff
  | case3 first offset t before inner ho m rest hc later x hb ih =>
    -- a marked text in front adds to neither side
    simpa [x, consMarked, StrayIn] using ih
  | case4 first offset t before inner ho m rest hc later x hb ih =>
    refine mem_findings_consUnmarked_iff ?_
    simpa [x, consMarked, StrayIn] using ih

end Extraction

/-- A report is one line, but for the text that it shows. -/
theorem TagFinding.isOneLine_event_line (f : TagFinding) :
    IsOneLine f.event.line ↔ ∀ u, f = .strayClose u → IsOneLine (String.ofList u) := by
  cases f with
  | danglingOpen offset =>
    have hbegun : IsOneLine (Event.debug .danglingOpenTag "Open tag without close tag").line := by
      decide
    exact iff_of_true (Event.isOneLine_line_withCount hbegun (by decide) offset) nofun
  | strayClose t =>
    have hbegun : IsOneLine (Event.debug .strayCloseTag "Close tag without open tag").line := by
      decide
    constructor
    · rintro h u hu
      obtain rfl := TagFinding.strayClose.inj hu
      exact (List.forall_mem_singleton.1 (Event.isOneLine_line_iff.1 h).2.2).2
    · intro h
      exact Event.isOneLine_line_withValue hbegun (by decide) (h t rfl)

namespace Extractor

open Extraction (StrayIn mem_findings_extractFrom_iff)

/-- The reports about a snippet are lines if its stray segments are, or are not reported. -/
theorem isOneLine_extract_iff (x : Extractor) (t : Text) :
    (∀ e ∈ (x.extract t).events, IsOneLine e.line) ↔ (x.settings.reportMalformed = true →
      ∀ u, StrayIn x.tags u (x.extract t).value.1 → IsOneLine (String.ofList u)) := by
  have hevents : (x.extract t).events = if x.settings.reportMalformed = true then
      (Extraction.ofText x.tags t).findings.map TagFinding.event else [] := rfl
  have hsegments : (x.extract t).value.1 = (Extraction.ofText x.tags t).segments := rfl
  rw [hevents, hsegments]
  split
  · next h =>
    simp only [List.forall_mem_map, TagFinding.isOneLine_event_line, h, true_imp_iff]
    constructor
    · intro hall u hu
      exact hall _ ((mem_findings_extractFrom_iff ..).2 hu) u rfl
    · rintro hall f hf u rfl
      exact hall u ((mem_findings_extractFrom_iff ..).1 hf)
  · next h => exact iff_of_true nofun fun hreport => absurd hreport h

/-- The reports about snippets one after another are those about each. -/
theorem events_extractEach (x : Extractor) (ts : List Text) :
    (x.extractEach ts).events = ts.flatMap fun t => (x.extract t).events := by
  induction ts generalizing x with
  | nil => rfl
  | cons t ts ih =>
    have hrest := ih (x.extract t).value.2
    simp only [extractEach, Logged.events_bind, Logged.events_pure, List.append_nil, hrest,
      List.flatMap_cons]
    rfl

/-- The reports about the list itself are one line each. -/
theorem isOneLine_extractAll_iff (x : Extractor) (ts : List Text) :
    (∀ e ∈ (x.extractAll ts).events, IsOneLine e.line) ↔
      ∀ t ∈ ts, ∀ e ∈ (x.extract t).events, IsOneLine e.line := by
  have hlarge : IsOneLine (Event.warning .largeItemList "Item list exceeds threshold").line := by
    decide
  have hsplit : IsOneLine (Event.success .snippetsSplit "Marker segments extracted").line := by
    decide
  have hcounts {e : Event} (he : IsOneLine e.line) {n₁ n₂ : String} (h₁ : IsOneLine n₁)
      (h₂ : IsOneLine n₂) (a b : Nat) : IsOneLine ((e.withCount n₁ a).withCount n₂ b).line :=
    Event.isOneLine_line_withCount (Event.isOneLine_line_withCount he h₁ a) h₂ b
  have hnames : IsOneLine "items" ∧ IsOneLine "threshold" ∧ IsOneLine "marked" := by decide
  have heach : (∀ e ∈ (x.extractEach ts).events, IsOneLine e.line) ↔
      ∀ t ∈ ts, ∀ e ∈ (x.extract t).events, IsOneLine e.line := by
    rw [events_extractEach]
    exact List.forall_mem_flatMap
  rw [extractAll]
  split <;>
    simp only [Logged.tell, Logged.events_bind, Logged.events_pure, List.forall_mem_append,
      List.forall_mem_singleton, List.not_mem_nil, false_imp_iff, implies_true, and_true, heach,
      hcounts hlarge hnames.1 hnames.2.1, hcounts hsplit hnames.1 hnames.2.2, true_and]

end Extractor

/-! ## The line of an event in JSON -/

namespace Json

variable {name : String} {value j : Json} {members : List (String × Json)}

/-- A character in a string breaks no line. -/
theorem isUnbroken_escapeChar (c : Char) : Text.IsUnbroken (escapeChar c) := by
  have hdigits : ∀ n < 16, Nat.digitChar n ≠ '\n' ∧ Nat.digitChar n ≠ '\r' := by decide
  have hsigns : Text.IsUnbroken ['\\', 'u', '0', '0'] := by decide
  unfold escapeChar
  split
  all_goals try decide
  split
  · next hc =>
    refine List.forall_mem_append.2 ⟨hsigns, List.forall_mem_cons.2 ⟨hdigits _ (by omega), ?_⟩⟩
    exact List.forall_mem_singleton.2 (hdigits _ (by omega))
  · next hc =>
    refine List.forall_mem_singleton.2 ⟨?_, ?_⟩ <;>
    · rintro rfl
      exact hc (by decide)

/-- A string is written on one line. -/
theorem isUnbroken_writeString (s : String) : Text.IsUnbroken (writeString s) := by
  have hquote : Text.IsUnbroken ['"'] := by decide
  refine List.forall_mem_append.2 ⟨List.forall_mem_append.2 ⟨hquote, ?_⟩, hquote⟩
  exact List.forall_mem_flatMap.2 fun c _ => isUnbroken_escapeChar c

/-- A value that is written on one line. -/
def StaysOnLine (j : Json) : Prop := ∀ depth, Text.IsUnbroken (write .compact depth j)

/-- So is a value that is a string. -/
theorem staysOnLine_str (s : String) : StaysOnLine (str s) := fun depth => by
  rw [write]
  exact isUnbroken_writeString s

/-- A truth value is written on one line. -/
theorem staysOnLine_bool (b : Bool) : StaysOnLine (bool b) := fun depth => by
  cases b <;> rw [write] <;> decide

/-- A number is written on one line. -/
theorem staysOnLine_nat (n : Nat) : StaysOnLine (nat n) := fun depth => by
  rw [nat, write]
  exact Text.isUnbroken_digits n

/-- A member is written on one line if its value is. -/
theorem isUnbroken_member (hvalue : StaysOnLine value) (depth : Nat) {t : Text}
    (ht : Text.IsUnbroken t) :
    Text.IsUnbroken (writeString name ++ (Layout.compact.colon ++
      (write .compact depth value ++ t))) := by
  have hcolon : Text.IsUnbroken Layout.compact.colon := by decide
  simp only [Text.IsUnbroken, List.forall_mem_append]
  exact ⟨isUnbroken_writeString name, hcolon, hvalue depth, ht⟩

/-- Members are written on one line if their values are. -/
theorem isUnbroken_writeMembers (h : ∀ m ∈ members, StaysOnLine m.2) (depth : Nat) :
    Text.IsUnbroken (writeMembers .compact depth members) := by
  induction members with
  | nil => rw [writeMembers]; nofun
  | cons m members ih =>
    obtain ⟨hm, hmembers⟩ := List.forall_mem_cons.1 h
    rw [writeMembers]
    exact List.forall_mem_cons.2 ⟨by decide, isUnbroken_member hm depth (ih hmembers)⟩

/-- An object is written on one line if the values of its members are. -/
theorem staysOnLine_obj (h : ∀ m ∈ members, StaysOnLine m.2) : StaysOnLine (obj members) := by
  intro depth
  cases members with
  | nil => rw [write]; decide
  | cons m members =>
    obtain ⟨hm, hmembers⟩ := List.forall_mem_cons.1 h
    have hrest := isUnbroken_writeMembers hmembers (depth + 1)
    have hclose : Text.IsUnbroken ['\x7d'] := by decide
    rw [write]
    refine List.forall_mem_cons.2 ⟨by decide, isUnbroken_member hm (depth + 1) ?_⟩
    exact List.forall_mem_append.2 ⟨hrest, hclose⟩

end Json

namespace Event

/-- **The line in JSON is one line,** whatever the event. -/
theorem isOneLine_jsonLine (e : Event) (moment : Moment) : IsOneLine (e.jsonLine moment) := by
  have hspan : ∀ m ∈ e.spanMembers, m.2.StaysOnLine := by
    unfold spanMembers
    split
    · nofun
    · refine List.forall_mem_singleton.2 (Json.staysOnLine_obj ?_)
      simp [Json.staysOnLine_nat]
  have hcontext : (Json.obj (e.context.map fun p => (p.1, .str p.2))).StaysOnLine :=
    Json.staysOnLine_obj (List.forall_mem_map.2 fun p _ => Json.staysOnLine_str p.2)
  have herror : (Json.obj [("description", .str e.entry.description),
      ("recommended_action", .str e.entry.action),
      ("recoverable", .bool e.entry.recoverable)]).StaysOnLine := by
    refine Json.staysOnLine_obj ?_
    simp [Json.staysOnLine_str, Json.staysOnLine_bool]
  have hoptional {c : Prop} [Decidable c] {name : String} {j : Json} (hj : j.StaysOnLine) :
      ∀ m ∈ (if c then [(name, j)] else []), m.2.StaysOnLine := by
    split
    · exact List.forall_mem_singleton.2 hj
    · nofun
  have hjson : (e.toJson moment).StaysOnLine := by
    refine Json.staysOnLine_obj ?_
    simp only [List.forall_mem_append, List.forall_mem_cons, Json.staysOnLine_str,
      List.not_mem_nil, false_imp_iff, implies_true, true_and, and_true]
    refine ⟨⟨?_, hoptional herror⟩, hspan⟩
    split
    · nofun
    · exact List.forall_mem_singleton.2 hcontext
  rw [IsOneLine, jsonLine, String.toList_ofList]
  exact hjson 0

/-- **What can break the line of an event.** However the event was begun and added to, its line
is one line exactly if its code, its message as it is stored, and the names and values added
last are.  The extractor breaks it exactly for an unmarked text that has a line break and holds
a close tag; and no event breaks its line in JSON. -/
theorem line_breaks (code : Code) (message : String) (xs : List Addition) (x : Extractor)
    (t : Text) (ts : List Text) (moment : Moment) :
    (∀ e ∈ begun code message, IsOneLine (e.addAll xs).line ↔ IsOneLine e.code ∧
      Text.IsUnbroken (Text.truncate Limits.eventMessage message.toList) ∧
      ∀ name value, lastValue? name xs = some value → IsOneLine name ∧ IsOneLine value) ∧
    ((∀ e ∈ (x.extract t).events, IsOneLine e.line) ↔
      (x.settings.reportMalformed = true → x.tags.opening ≠ x.tags.closing →
        ∀ u, ⟨false, u⟩ ∈ (x.extract t).value.1 → x.tags.closing <:+: u → Text.IsUnbroken u)) ∧
    ((∀ e ∈ (x.extractAll ts).events, IsOneLine e.line) ↔
      ∀ t ∈ ts, ∀ e ∈ (x.extract t).events, IsOneLine e.line) ∧
    ∀ e : Event, IsOneLine (e.jsonLine moment) := by
  refine ⟨?_, ?_, Extractor.isOneLine_extractAll_iff x ts, fun e => isOneLine_jsonLine e moment⟩
  · intro e he
    obtain ⟨hmessage, -, hcontext⟩ := eq_of_mem_begun he
    obtain ⟨-, hcode, hmessage'⟩ := addAll_eq e xs
    have hstored : IsOneLine (e.addAll xs).message ↔
        Text.IsUnbroken (Text.truncate Limits.eventMessage message.toList) := by
      rw [hmessage', hmessage, IsOneLine, String.toList_ofList]
    simp only [isOneLine_line_iff, hstored, hcode, Prod.forall, mem_addAll_iff hcontext]
  · rw [Extractor.isOneLine_extract_iff]
    simp only [Extraction.StrayIn, IsOneLine, String.toList_ofList, and_imp]
    constructor
    · exact fun h hreport hne u hu hin => h hreport u hne hu hin
    · exact fun h hreport u hne hu hin => h hreport hne u hu hin

end Event

namespace Extractor

/-- A close tag without an open tag, and after a line break what would be the line of an error. -/
def forgery : Text := "a</kw>\n[ERROR] P001 - Cannot read input file (path=x".toList

/-- The report of that close tag is two lines, and the second is the error's. -/
theorem stray_close_tag_writes_second_line :
    let x : Extractor := ⟨.standard, ⟨Limits.openTag, Limits.closeTag, true⟩, {}⟩
    let failed := (Event.error .inputUnreadable "Cannot read input file").withValue "path" "x"
    ∃ e ∈ (x.extract forgery).events, ¬IsOneLine e.line ∧
      e.line = "[DEBUG] M003 - Close tag without open tag (text=a</kw>\n" ++ failed.line := by
  intro x failed
  have hfindings : (Extraction.ofText .standard forgery).findings = [.strayClose forgery] := by
    cbv
  have hevents : (x.extract forgery).events =
      (Extraction.ofText .standard forgery).findings.map TagFinding.event := rfl
  refine ⟨(TagFinding.strayClose forgery).event, ?_, ?_, ?_⟩
  · rw [hevents, hfindings]
    exact List.mem_singleton_self _
  · decide +kernel
  · decide +kernel

end Extractor
end SearchMarkup
