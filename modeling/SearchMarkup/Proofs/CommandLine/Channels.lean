/-
# Where the input of a command comes from

A command that works on items takes them from one of three places:

| `--file` | arguments | the items are |
| --- | --- | --- |
| given | any | in the text of the file |
| not given | some | the arguments |
| not given | none | in the text of standard input |

A text holds queries as its lines and snippets as a JSON array (`Work.HeldBy`). From each
place the answer is the report on the items (`channels_agree`), and the places that are not
read make no difference: what a command answers is a function of what it reads, of the
environment and of the timing (`answer_tokenize`, `answer_markers`). The timing is there
because a JSON report tells how long the work took.
-/

import SearchMarkup.CommandLine.Run
import SearchMarkup.Proofs.Codec.RoundTrip
import SearchMarkup.Proofs.Text.WrittenLines

namespace SearchMarkup

/-- The bytes of a text in UTF-8. -/
def Text.utf8 (t : Text) : ByteArray := (String.ofList t).toUTF8

/-- The bytes of a text are decoded to it. -/
theorem decodeText_utf8 (t : Text) : decodeText t.utf8 = .ok t := by
  have hvalid : String.fromUTF8? t.utf8 = some (String.ofList t) := by
    rw [String.fromUTF8?, Text.utf8, String.toUTF8_eq_toByteArray, dif_pos (String.isValidUTF8 _)]
    rfl
  rw [decodeText, hvalid]
  exact congrArg Except.ok String.toList_ofList

namespace CommandLine

variable {w w' : Surroundings} {items items' : List String} {file : Option String}
variable {t : Text} {path : String} {timing : Timing}

/-! ## What a command reads -/

/-- A file is read as the text that its bytes encode. -/
theorem value_readFile (w : Surroundings) (path : String) :
    (readFile w path).value =
      ((w.files path).bind decodeText).mapError (.unreadableFile path) := by
  unfold readFile
  cases (w.files path).bind decodeText <;> rfl

/-- Without a file the arguments are the queries. -/
theorem value_queriesOf_arguments (w : Surroundings) (h : items ≠ []) :
    (queriesOf w items none).value = .ok (items.map String.toList) := by
  obtain ⟨item, items, rfl⟩ := List.exists_cons_of_ne_nil h
  rfl

/-- Without a file the arguments are the snippets. -/
theorem value_snippetsOf_arguments (w : Surroundings) (h : items ≠ []) :
    (snippetsOf w items none).value = .ok (.items (items.map String.toList)) := by
  obtain ⟨item, items, rfl⟩ := List.exists_cons_of_ne_nil h
  rfl

/-- The queries of a source are its lines that are not blank. -/
theorem value_queriesOf_text (w : Surroundings) (h : (file.isNone && !items.isEmpty) = false) :
    (queriesOf w items file).value = (readSource w file).value.map Text.nonBlankLines := by
  simp only [queriesOf, h, Bool.false_eq_true, if_false, Logged.value_bind]
  cases (readSource w file).value <;> rfl

/-- The snippets of a source are read as JSON. -/
theorem value_snippetsOf_text (w : Surroundings) (h : (file.isNone && !items.isEmpty) = false) :
    (snippetsOf w items file).value =
      (readSource w file).value.bind fun t => (readSnippetInput t).value := by
  simp only [snippetsOf, h, Bool.false_eq_true, if_false, Logged.value_bind]
  cases (readSource w file).value <;> rfl

/-- A text that is no input is reported as such. -/
theorem value_readSnippetInput (t : Text) :
    (readSnippetInput t).value = (SnippetInput.parse? t).mapError .badJson := by
  unfold readSnippetInput
  cases SnippetInput.parse? t <;> rfl

/-! ## What a command answers -/

/-- What a command answers: the text it writes to standard output, or why it failed. -/
def answer (w : Surroundings) (timing : Timing) (c : Command) : Except CommandFault Text :=
  (execute w timing c).value

/-- The settings of a command on queries. -/
def querySettings (environment : Environment) (plainClasses : Bool) : Settings :=
  let s := Settings.ofEnvironment environment
  if plainClasses then { s with render.classStyle := .plain } else s

/-- The tags of a command on snippets: those of its options, or else of the environment. -/
def tagsOf (environment : Environment) (opening closing : Option String) :
    Except CommandFault MarkerTags :=
  let s := Settings.ofEnvironment environment
  let tags := MarkerTags.ofTexts ((opening.map String.toList).getD s.marking.openTag)
    ((closing.map String.toList).getD s.marking.closeTag)
  tags.mapError .badTags

/-- What is answered about queries depends on the queries. -/
theorem answer_tokenize (w : Surroundings) (timing : Timing) (items : List String)
    (file : Option String) (format : OutputFormat) (plainClasses : Bool) :
    answer w timing (.tokenize items file format plainClasses) =
      (queriesOf w items file).value.map fun ts =>
        writeQueries format
          (highlightQueries (querySettings w.environment plainClasses) timing ts).value := by
  simp only [answer, execute, Logged.value_bind]
  cases (queriesOf w items file).value <;> rfl

/-- What is answered about snippets depends on the tags and the snippets. -/
theorem answer_markers (w : Surroundings) (timing : Timing) (items : List String)
    (file opening closing : Option String) (format : OutputFormat) :
    answer w timing (.markers items file opening closing format) =
      (tagsOf w.environment opening closing).bind fun tags =>
        (snippetsOf w items file).value.map fun input =>
          writeSnippets format
            (highlightInput (.ofEnvironment w.environment) tags timing input).value := by
  simp only [answer, execute, tagsOf]
  split
  -- refused tags settle the matter before any input is read
  · next h => rw [h]; rfl
  · next h =>
    rw [h, Logged.value_bind]
    cases (snippetsOf w items file).value <;> rfl

/-! ## The three places -/

/-- What is to be done with items. -/
inductive Work where
  | tokenize (format : OutputFormat) (plainClasses : Bool)
  | markers (opening closing : Option String) (format : OutputFormat)
  deriving DecidableEq, Repr

namespace Work

/-- The command that does the work on items of its arguments, or of a file. -/
def command (items : List String) (file : Option String) : Work → Command
  | .tokenize format plainClasses => .tokenize items file format plainClasses
  | .markers opening closing format => .markers items file opening closing format

/-- What the work makes of items: the report on them, unless the tags are refused. -/
def report (environment : Environment) (timing : Timing) (items : List Text) :
    Work → Except CommandFault Text
  | .tokenize format plainClasses =>
    let s := querySettings environment plainClasses
    .ok (writeQueries format (highlightQueries s timing items).value)
  | .markers opening closing format =>
    (tagsOf environment opening closing).map fun tags =>
      let s := Settings.ofEnvironment environment
      writeSnippets format (highlightSnippets s tags timing items).value

/-- A text holds items in the form in which the work takes them from a text. -/
def HeldBy (items : List Text) (t : Text) : Work → Prop
  | .tokenize _ _ => (∀ l ∈ items, l.IsLine ∧ l.isBlank = false) ∧ Text.Written items t
  | .markers _ _ _ => Json.parse? t = .ok (.list Json.text items)

/-- Written as a JSON array in either layout, any snippets are held. -/
theorem heldBy_layout (items : List Text) (pretty : Bool) (opening closing : Option String)
    (format : OutputFormat) :
    HeldBy items ((Json.list Json.text items).layout pretty) (.markers opening closing format) := by
  have hkept : Json.Kept Json.maxDepth (.list Json.text items) :=
    (Json.Carried.list fun t _ => Json.carried_text _ t).kept
  exact hkept.parse?_layout pretty

end Work

variable (k : Work)

/-- Arguments are all that is read, if there are any and no file. -/
theorem answer_arguments (w : Surroundings) (h : items ≠ []) :
    answer w timing (k.command items none) =
      k.report w.environment timing (items.map String.toList) := by
  cases k with
  | tokenize format plainClasses =>
    rw [Work.command, answer_tokenize, value_queriesOf_arguments w h]
    rfl
  | markers opening closing format =>
    rw [Work.command, answer_markers, value_snippetsOf_arguments w h]
    rfl

/-- A file is all that is read, if it is given. -/
theorem answer_file (henv : w'.environment = w.environment)
    (hfile : w'.files path = w.files path) (items items' : List String) :
    answer w' timing (k.command items' (some path)) =
      answer w timing (k.command items (some path)) := by
  have hsource : (readSource w' (some path)).value = (readSource w (some path)).value := by
    simp only [readSource, value_readFile, hfile]
  cases k with
  | tokenize format plainClasses =>
    rw [Work.command, Work.command, answer_tokenize, answer_tokenize,
      value_queriesOf_text w' rfl, value_queriesOf_text w rfl, hsource, henv]
  | markers opening closing format =>
    rw [Work.command, Work.command, answer_markers, answer_markers,
      value_snippetsOf_text w' rfl, value_snippetsOf_text w rfl, hsource, henv]

/-- **A text stands for the items it holds.** -/
theorem answer_of_heldBy (w : Surroundings) (hheld : k.HeldBy (items.map String.toList) t)
    (hreads : (file.isNone && !items'.isEmpty) = false)
    (hsource : (readSource w file).value = .ok t) :
    answer w timing (k.command items' file) =
      k.report w.environment timing (items.map String.toList) := by
  cases k with
  | tokenize format plainClasses =>
    obtain ⟨hlines, hwritten⟩ := hheld
    have hread : Text.nonBlankLines t = items.map String.toList := by
      rw [Text.nonBlankLines_of_written (fun l hl => (hlines l hl).1) hwritten,
        List.filter_eq_self]
      intro l hl
      rw [(hlines l hl).2, Bool.not_false]
    rw [Work.command, answer_tokenize, value_queriesOf_text w hreads, hsource, ← hread]
    rfl
  | markers opening closing format =>
    have hparse : SnippetInput.parse? t = .ok (.items (items.map String.toList)) :=
      SnippetInput.parse?_eq_ok_iff.2 ⟨_, hheld, SnippetInput.ofJson?_eq_some_iff.2 rfl⟩
    have hread : (snippetsOf w items' file).value = .ok (.items (items.map String.toList)) := by
      rw [value_snippetsOf_text w hreads, hsource]
      exact (value_readSnippetInput t).trans (by rw [hparse]; rfl)
    rw [Work.command, answer_markers, hread]
    rfl

/-- **The places input comes from agree.** Items are answered with the report on them, or with
what is wrong with the tags, whether they are arguments or in the text of a file or of
standard input; the report on them depends on the environment and the timing and on nothing
else around the command. If a file is given, whatever it holds, neither arguments nor
standard input make a difference. -/
theorem channels_agree (timing : Timing) (w : Surroundings) :
    (∀ items, items ≠ [] →
      let report := k.report w.environment timing (items.map String.toList)
      answer w timing (k.command items none) = report ∧
        ∀ t, k.HeldBy (items.map String.toList) t →
          (∀ path args, w.files path = .ok t.utf8 →
            answer w timing (k.command args (some path)) = report) ∧
          (w.stdin = t.utf8 → answer w timing (k.command [] none) = report)) ∧
      ∀ w' path args args', w'.environment = w.environment → w'.files path = w.files path →
        answer w' timing (k.command args' (some path)) =
          answer w timing (k.command args (some path)) := by
  refine ⟨fun items hitems => ⟨answer_arguments k w hitems, fun t hheld => ⟨?_, ?_⟩⟩, ?_⟩
  · intro path args hfile
    refine answer_of_heldBy k w hheld rfl ?_
    rw [readSource, value_readFile, hfile]
    exact congrArg (Except.mapError _) (decodeText_utf8 t)
  · intro hstdin
    refine answer_of_heldBy k w hheld rfl ?_
    rw [readSource, Logged.value_pure, readStdin, hstdin, decodeText_utf8]
    rfl
  · intro w' path args args' henv hfile
    exact answer_file k henv hfile args args'

/-- Two queries, with a carriage return inside the second, are on standard input, and two
snippets in a file. -/
theorem channels_agree_inner_return :
    let k : Work := .tokenize .json true
    let queries := ["a", "b\rc"]
    let t : Text := ['a', '\r', '\n', 'b', '\r', 'c']
    let k' : Work := .markers (some "[") (some "]") .text
    let snippets := ["[x", "y]"]
    let t' : Text := (Json.list Json.text (snippets.map String.toList)).layout true
    let w : Surroundings := { stdin := t.utf8, files := fun _ => .ok t'.utf8 }
    let timing : Timing := { elapsed := .ofNanos 1500000 }
    queries ≠ [] ∧ k.HeldBy (queries.map String.toList) t ∧ w.stdin = t.utf8 ∧
      answer w timing (k.command queries none) = answer w timing (k.command [] none) ∧
      snippets ≠ [] ∧ k'.HeldBy (snippets.map String.toList) t' ∧ w.files "f" = .ok t'.utf8 ∧
      answer w timing (k'.command snippets none) =
        answer w timing (k'.command ["x"] (some "f")) ∧
      answer { w with stdin := .empty } timing (k'.command [] (some "f")) =
        answer w timing (k'.command ["x"] (some "f")) := by
  intro k queries t k' snippets t' w timing
  have hlines : ∀ l : Text, l ∈ queries.map String.toList → l.IsLine ∧ l.isBlank = false := by
    intro l hl
    obtain rfl | rfl : l = ['a'] ∨ l = ['b', '\r', 'c'] := by simpa [queries] using hl
    · exact ⟨⟨by decide, by decide⟩, by decide⟩
    · exact ⟨⟨by decide, by decide⟩, by decide⟩
  have hheld : k.HeldBy (queries.map String.toList) t :=
    ⟨hlines, .returnFeed ['a'] (.last ['b', '\r', 'c'])⟩
  have hheld' : k'.HeldBy (snippets.map String.toList) t' :=
    Work.heldBy_layout (snippets.map String.toList) true _ _ _
  have hqueries : queries ≠ [] := List.cons_ne_nil _ _
  have hsnippets : snippets ≠ [] := List.cons_ne_nil _ _
  obtain ⟨harguments, htexts⟩ := (channels_agree k timing w).1 queries hqueries
  obtain ⟨harguments', htexts'⟩ := (channels_agree k' timing w).1 snippets hsnippets
  refine ⟨hqueries, hheld, rfl, ?_, hsnippets, hheld', rfl, ?_, ?_⟩
  · exact harguments.trans ((htexts t hheld).2 rfl).symm
  · exact harguments'.trans ((htexts' t' hheld').1 "f" ["x"] rfl).symm
  · exact (channels_agree k' timing w).2 _ "f" ["x"] [] rfl rfl

end CommandLine
end SearchMarkup
