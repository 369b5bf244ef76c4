/-
# Sequences and snippet input survive JSON

Written as JSON, indented or on one line, and read again, a sequence of tokens and a
snippet input are what they were (`layouts_carry`). Of a sequence this takes that its
offsets and its size fit 64 bits (`TokenSequence.FitsWords`), as they do in every text
that fits the memory; tokens, texts and quote characters may be any.

Two things are shown of each record at once (`Json.Carried`): its value reads as the
record, and the value is one that written text keeps. What is left to see is that no two
forms are mixed up: the name of a token's kind tells its content apart, a missing value is
written as `null` and nothing else is, and a document is an object where items are a list.
-/

import SearchMarkup.Codec.Report
import SearchMarkup.Proofs.Json.WrittenText

namespace SearchMarkup
namespace Json

variable {α : Type} {read : Json → Option α} {write : α → Json} {n : Nat}

/-- **The text of a value that is kept has that value,** in either layout. -/
theorem Kept.parse?_layout {j : Json} (h : Kept maxDepth j) (pretty : Bool) :
    parse? (j.layout pretty) = .ok j := by
  cases pretty with
  | true => exact h.parse?_write Layout.isBlank_pretty
  | false => exact h.parse?_write Layout.isBlank_compact

/-- What is written of `a` reads as `a`, and text keeps it at a depth of `n`. -/
structure Carried (read : Json → Option α) (write : α → Json) (n : Nat) (a : α) : Prop where
  read_write : read (write a) = some a
  kept : Kept n (write a)

/-- A text is carried as a string. -/
theorem carried_text (n : Nat) (t : Text) : Carried text? text n t :=
  ⟨(exact_text _ t).2 rfl, .str _⟩

/-- A character is carried as a string of one. -/
theorem carried_char (n : Nat) (c : Char) : Carried char? (fun c => text [c]) n c :=
  ⟨by simp [char?, (carried_text n [c]).read_write], .str _⟩

/-- A number of 64 bits is carried. -/
theorem carried_nat64 (n : Nat) {k : Nat} (hk : k < Nat.pow 2 64) : Carried nat64? nat n k :=
  ⟨if_pos hk, .nat hk⟩

/-- A word of 32 bits is carried as its number. -/
theorem carried_word32 (n : Nat) (w : UInt32) : Carried word32? (fun w => nat w.toNat) n w := by
  have hw : w.toNat < Nat.pow 2 32 := w.toNat_lt
  refine ⟨?_, .nat (Nat.lt_trans hw (by decide))⟩
  rw [word32?, nat, natBelow?, if_pos hw, Option.map_some, UInt32.ofNat_toNat]

/-- A list is carried one level deeper than its items. -/
theorem Carried.list {as : List α} (h : ∀ a ∈ as, Carried read write n a) :
    Carried (list? read) (list write) (n + 1) as := by
  constructor
  · rw [Json.list, list?]
    induction as with
    | nil => rfl
    | cons a as ih =>
      rw [List.map_cons, List.mapM_cons, (h a (List.mem_cons_self ..)).read_write,
        ih fun a' ha' => h a' (List.mem_cons_of_mem a ha')]
      rfl
  · refine .arr fun j hj => ?_
    obtain ⟨a, ha, rfl⟩ := List.mem_map.1 hj
    exact (h a ha).kept

/-- A value that may be missing is carried if it is never written as what is missing. -/
theorem Carried.option {o : Option α} (h : ∀ a ∈ o, Carried read write n a)
    (hnull : ∀ a ∈ o, write a ≠ null) :
    Carried (fun j => optional? read (some j)) (option write) n o := by
  cases o with
  | none => exact ⟨rfl, .null⟩
  | some a =>
    have ha := h a rfl
    refine ⟨?_, ha.kept⟩
    have hread : optional? read (some (write a)) = (read (write a)).map some := by
      unfold optional?
      split
      · next heq => cases heq
      · next heq => exact absurd (Option.some.inj heq) (hnull a rfl)
      · next heq => rw [Option.some.inj heq]
    rw [Json.option, hread, ha.read_write]
    rfl

end Json

open Json (Carried Kept carried_text carried_char carried_nat64 carried_word32)

variable {n : Nat}

/-- A place is carried if its offset fits. -/
theorem Position.carried {p : Position} (h : p.offset < Nat.pow 2 64) :
    Carried ofJson? toJson (n + 1) p := by
  have hoffset := carried_nat64 n h
  have hline := carried_word32 n p.line
  have hcolumn := carried_word32 n p.column
  constructor
  · simp [ofJson?, toJson, Json.record?, Json.get?, Json.members, hoffset.read_write,
      hline.read_write, hcolumn.read_write]
  · refine .obj ?_
    simp [hoffset.kept, hline.kept, hcolumn.kept]

/-- A span is carried with its two ends. -/
theorem Span.carried {s : Span} (hstart : s.start.offset < Nat.pow 2 64)
    (hstop : s.stop.offset < Nat.pow 2 64) : Carried ofJson? toJson (n + 2) s := by
  have hstart := Position.carried (n := n) hstart
  have hstop := Position.carried (n := n) hstop
  constructor
  · simp [ofJson?, toJson, Json.record?, Json.get?, Json.members, hstart.read_write,
      hstop.read_write]
  · refine .obj ?_
    simp [hstart.kept, hstop.kept]

/-- A connective is carried by its name. -/
theorem Connective.carried (k : Connective) : Carried ofJson? toJson n k :=
  ⟨by cases k <;> decide, .str _⟩

/-- A field is carried by its name. -/
theorem Field.carried (f : Field) : Carried ofJson? toJson n f :=
  ⟨by cases f <;> decide, .str _⟩

/-- A quotation is carried with its quotes. -/
theorem Quotation.carried (q : Quotation) : Carried ofJson? toJson (n + 1) q := by
  have hopening := carried_char n q.opening
  have hbody := carried_text n q.body
  have hclosing := carried_char n q.closing
  constructor
  · simp [ofJson?, toJson, Json.record?, Json.get?, Json.members, hopening.read_write,
      hbody.read_write, hclosing.read_write]
  · refine .obj ?_
    simp [hopening.kept, hbody.kept, hclosing.kept]

/-- **A token is carried,** of whatever kind. -/
theorem Token.carried (x : Token) : Carried ofJson? toJson (n + 3) x := by
  -- The name of a kind, found among all, leads to the reader of that kind by computation.
  cases x with
  | connective k =>
    have hk := Connective.carried (n := n + 2) k
    refine ⟨congrArg (Option.map Token.connective) hk.read_write, .obj ?_⟩
    simpa using hk.kept
  | field f value =>
    have hf := Field.carried (n := n + 1) f
    have hvalue : Carried (fun j => Json.optional? Quotation.ofJson? (some j))
        (Json.option Quotation.toJson) (n + 1) value :=
      .option (fun q _ => q.carried) (fun _ _ => nofun)
    have hfield : fieldOfJson? (.obj [("key", f.toJson),
        ("value", .option Quotation.toJson value)]) = some (.field f value) := by
      simp [fieldOfJson?, Json.get?, Json.members, hf.read_write, hvalue.read_write]
    refine ⟨hfield, .obj ?_⟩
    simp only [List.mem_singleton, forall_eq]
    refine .obj ?_
    simp [hf.kept, hvalue.kept]
  | quotation q =>
    have hq := Quotation.carried (n := n + 1) q
    refine ⟨congrArg (Option.map Token.quotation) hq.read_write, .obj ?_⟩
    simpa using hq.kept
  | plain t =>
    have ht := carried_text (n + 2) t
    refine ⟨congrArg (Option.map Token.plain) ht.read_write, .obj ?_⟩
    simpa using ht.kept

/-- A token is carried with its span. -/
theorem Located.carried {x : Located Token} (hstart : x.span.start.offset < Nat.pow 2 64)
    (hstop : x.span.stop.offset < Nat.pow 2 64) :
    Carried (ofJson? Token.ofJson?) (toJson Token.toJson) (n + 4) x := by
  have hvalue := Token.carried (n := n) x.value
  have hspan := Span.carried (n := n + 1) hstart hstop
  constructor
  · simp [ofJson?, toJson, Json.record?, Json.get?, Json.members, hvalue.read_write,
      hspan.read_write]
  · refine .obj ?_
    simp [hvalue.kept, hspan.kept]

namespace TokenSequence

/-- The numbers of a sequence fit 64 bits. -/
structure FitsWords (s : TokenSequence) : Prop where
  size : s.sourceSize < Nat.pow 2 64
  spans : ∀ x ∈ s.tokens, x.span.start.offset < Nat.pow 2 64 ∧ x.span.stop.offset < Nat.pow 2 64

/-- **A sequence is carried** if its numbers fit. -/
theorem carried {s : TokenSequence} (h : s.FitsWords) : Carried ofJson? toJson (n + 6) s := by
  have htokens : Carried (Json.list? (Located.ofJson? Token.ofJson?))
      (Json.list (Located.toJson Token.toJson)) (n + 5) s.tokens :=
    .list fun x hx => Located.carried (h.spans x hx).1 (h.spans x hx).2
  have hsize := carried_nat64 (n + 5) h.size
  constructor
  · simp [ofJson?, toJson, Json.record?, Json.get?, Json.members, htokens.read_write,
      hsize.read_write]
  · refine .obj ?_
    simp [htokens.kept, hsize.kept]

end TokenSequence

/-- A document is carried whether its fields are there or not. -/
theorem SnippetDocument.carried (d : SnippetDocument) : Carried ofJson? toJson (n + 2) d := by
  have hhighlights : Carried (fun j => Json.optional? (Json.list? Json.text?) (some j))
      (Json.option (Json.list Json.text)) (n + 1) d.highlights :=
    .option (fun ts _ => .list fun t _ => carried_text n t) (fun _ _ => nofun)
  have habstract : Carried (fun j => Json.optional? Json.text? (some j))
      (Json.option Json.text) (n + 1) d.abstractText :=
    .option (fun t _ => carried_text (n + 1) t) (fun _ _ => nofun)
  constructor
  · simp [ofJson?, toJson, ofParts?, Json.get?, Json.members, hhighlights.read_write,
      habstract.read_write]
  · refine .obj ?_
    simp [hhighlights.kept, habstract.kept]

/-- **Snippet input is carried,** and no list of items passes for a document. -/
theorem SnippetInput.carried (x : SnippetInput) : Carried ofJson? toJson (n + 2) x := by
  cases x with
  | items ts =>
    have hts : Carried (Json.list? Json.text?) (Json.list Json.text) (n + 2) ts :=
      .list fun t _ => carried_text (n + 1) t
    refine ⟨?_, hts.kept⟩
    simp [ofJson?, toJson, hts.read_write]
  | document d =>
    have hd := SnippetDocument.carried (n := n) d
    refine ⟨?_, hd.kept⟩
    have hnone : d.toJson.list? Json.text? = none := rfl
    simp [ofJson?, toJson, hnone, hd.read_write]

namespace Json

/-- **What is written as JSON is read back, in either layout:** sequences of tokens whose
numbers fit their words, and all snippet input. -/
theorem layouts_carry (pretty : Bool) :
    (∀ s : TokenSequence, s.FitsWords →
      ∃ j, parse? (s.toJson.layout pretty) = .ok j ∧ TokenSequence.ofJson? j = some s) ∧
      ∀ x : SnippetInput, SnippetInput.parse? (x.toJson.layout pretty) = .ok x := by
  constructor
  · intro s h
    have hs := TokenSequence.carried (n := 121) h
    exact ⟨_, hs.kept.parse?_layout pretty, hs.read_write⟩
  · intro x
    have hx := SnippetInput.carried (n := 125) x
    exact SnippetInput.parse?_eq_ok_iff.2 ⟨_, hx.kept.parse?_layout pretty, hx.read_write⟩

/-- A field set to a quotation of what JSON escapes, under curly quotes and at the far end
of what 64 bits count. -/
theorem layouts_carry_escapes :
    let s : TokenSequence :=
      ⟨[⟨.field .title (some ⟨'“', ['"', '\\', '\x01', '\n', '😀'], '”'⟩),
        ⟨⟨18446744073709551615, 4294967295, 1⟩, ⟨0, 1, 0⟩⟩⟩], 18446744073709551615⟩
    s.FitsWords ∧
      ∃ j, parse? (s.toJson.layout true) = .ok j ∧ TokenSequence.ofJson? j = some s := by
  intro s
  have h : s.FitsWords := by
    refine ⟨by decide, fun x hx => ?_⟩
    obtain rfl := List.mem_singleton.1 hx
    decide
  exact ⟨h, (layouts_carry true).1 s h⟩

end Json
end SearchMarkup
