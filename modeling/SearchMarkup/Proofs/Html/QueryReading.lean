/-
# Reading the markup of a query back

The markup of a query is coded text with spans in it, and no span stands in another.
`Reads m rs` says that a reader of the markup `m` sees the runs `rs`: stretches of text,
each with the class of the span it stands in, if any. There is at most one such reading,
of the whole markup (`Reads.unique`) or up to a tag that closes an element around it
(`Reads.append_inj`), and every `<` and `>` in the markup belongs to the tags of a span
(`Reads.count_eq`).

What a reader sees of a query, one token after another:

| token | runs |
| --- | --- |
| connective | its word in a keyword span |
| field | its key in a key span |
| field with a value | its key in a key span, `=` outside, the quotation |
| quotation | all of it in a string span, or its body in one and the quotes outside |
| plain | its text outside |

Stretches of text outside spans that touch are one run, and none of them is empty
(`Run.joined`).

All this is about markup that is written. A query is not rendered if the size that its
tokens say it has, which nobody checks, asks for more room than a text can have.
-/

import SearchMarkup.Html.Render
import SearchMarkup.Proofs.Html.CodedText

namespace SearchMarkup
namespace Html

/-- A stretch of text, with the class of the span it stands in, if any. -/
structure Run where
  className : Option String
  text : Text
  deriving DecidableEq, Repr

namespace Run

/-- Whether a run is a span. -/
def isSpan (r : Run) : Bool := r.className.isSome

/-- A run in front of others. Text outside spans goes into the run that follows, if that
is outside too, and leaves nothing behind if it is empty. -/
def join (r : Run) (rs : List Run) : List Run :=
  match r, rs with
  | ⟨none, []⟩, rs => rs
  | ⟨none, c :: t⟩, ⟨none, u⟩ :: rs => ⟨none, c :: t ++ u⟩ :: rs
  | r, rs => r :: rs

/-- Runs with all touching text outside spans put together. -/
def joined (rs : List Run) : List Run := rs.foldr join []

/-- Text outside spans may be put in front one character at a time. -/
theorem join_cons_text (c : Char) (t : Text) (rs : List Run) :
    join ⟨none, [c]⟩ (join ⟨none, t⟩ rs) = join ⟨none, c :: t⟩ rs := by
  cases t with
  | nil => rfl
  | cons d t =>
    match rs with
    | [] => rfl
    | ⟨none, u⟩ :: rs => rfl
    | ⟨some _, u⟩ :: rs => rfl

/-- Putting a run in front loses no text. -/
theorem flatMap_text_join (r : Run) (rs : List Run) :
    (join r rs).flatMap text = r.text ++ rs.flatMap text := by
  unfold join
  split <;> simp

/-- Runs in spans are counted one by one, for only text outside is put together. -/
theorem countP_join {f : Run → Bool} (hf : ∀ t, f ⟨none, t⟩ = false) (r : Run)
    (rs : List Run) : (join r rs).countP f = [r].countP f + rs.countP f := by
  unfold join
  split
  · simp [hf]
  · simp [hf]
  · simp [List.countP_cons, Nat.add_comm]

/-- Putting a run in front loses no span. -/
theorem countP_isSpan_join (r : Run) (rs : List Run) :
    (join r rs).countP isSpan = [r].countP isSpan + rs.countP isSpan :=
  countP_join (fun _ => rfl) r rs

/-- Putting runs together loses no text. -/
theorem flatMap_text_joined (rs : List Run) : (joined rs).flatMap text = rs.flatMap text := by
  induction rs with
  | nil => rfl
  | cons r rs ih =>
    show (join r (joined rs)).flatMap text = _
    rw [flatMap_text_join, ih, List.flatMap_cons]

/-- Runs in spans are counted the same when all are put together. -/
theorem countP_joined {f : Run → Bool} (hf : ∀ t, f ⟨none, t⟩ = false) (rs : List Run) :
    (joined rs).countP f = rs.countP f := by
  induction rs with
  | nil => rfl
  | cons r rs ih =>
    show (join r (joined rs)).countP f = _
    rw [countP_join hf, ih, ← List.countP_append, List.singleton_append]

/-- Putting runs together loses no span. -/
theorem countP_isSpan_joined (rs : List Run) : (joined rs).countP isSpan = rs.countP isSpan :=
  countP_joined (fun _ => rfl) rs

end Run

/-- The tag that opens a span of a class. -/
def spanOpening (className : String) : Text :=
  ['<', 's', 'p', 'a', 'n', ' ', 'c', 'l', 'a', 's', 's', '=', '"'] ++ className.toList ++
    ['"', '>']

/-- The tag that closes a span. -/
def spanClosing : Text := ['<', '/', 's', 'p', 'a', 'n', '>']

/-- A reader of the markup sees the runs. -/
inductive Reads : Text → List Run → Prop
  | nil : Reads [] []
  /-- A character outside spans. -/
  | char {c : Char} {e m : Text} {rs : List Run} (hc : Writes c e) (h : Reads m rs) :
    Reads (e ++ m) (Run.join ⟨none, [c]⟩ rs)
  /-- A span, which holds no other. -/
  | span {className : String} {inner t m : Text} {rs : List Run}
    (hclass : ∀ d ∈ delimiters, d ∉ className.toList) (hinner : Coded inner t)
    (h : Reads m rs) :
    Reads (spanOpening className ++ inner ++ spanClosing ++ m) (⟨some className, t⟩ :: rs)

/-- A span is read in one way. -/
theorem span_inj {C C' : String} {i i' t t' m m' : Text}
    (hC : ∀ d ∈ delimiters, d ∉ C.toList) (hC' : ∀ d ∈ delimiters, d ∉ C'.toList)
    (hi : Coded i t) (hi' : Coded i' t')
    (h : spanOpening C ++ i ++ spanClosing ++ m = spanOpening C' ++ i' ++ spanClosing ++ m') :
    C = C' ∧ t = t' ∧ m = m' := by
  have hquote : '"' ∈ delimiters := by decide
  have hless : '<' ∈ delimiters := by decide
  simp only [spanOpening, spanClosing, List.append_assoc, List.cons_append, List.nil_append,
    List.cons.injEq, true_and] at h
  obtain ⟨hclass, h⟩ := Text.append_cons_inj (hC _ hquote) (hC' _ hquote) h
  obtain ⟨-, h⟩ := List.cons.inj h
  obtain ⟨rfl, h⟩ := Text.append_cons_inj (hi.not_mem hless) (hi'.not_mem hless) h
  exact ⟨String.toList_inj.1 hclass, hi.unique hi', by simpa using h⟩

/-- No character is written as what a span begins with. -/
theorem Writes.ne_span {c : Char} {e r : Text} {C : String} {i m : Text} (h : Writes c e) :
    e ++ r ≠ spanOpening C ++ i ++ spanClosing ++ m :=
  h.append_ne_cons (by decide)

/-- What may come after markup that is read: nothing, or a tag that closes an element. -/
inductive EndsMarkup : Text → Prop
  | nil : EndsMarkup []
  | closing (t : Text) : EndsMarkup ('<' :: '/' :: t)

/-- Where a markup ends, no character is written. -/
theorem EndsMarkup.ne_written {c : Char} {z e r : Text} (hz : EndsMarkup z) (h : Writes c e) :
    z ≠ e ++ r := by
  cases hz with
  | nil => exact fun heq => h.ne_nil (List.append_eq_nil_iff.1 heq.symm).1
  | closing t => exact fun heq => h.append_ne_cons (by decide) heq.symm

/-- Where a markup ends, no span begins. -/
theorem EndsMarkup.ne_span {C : String} {z i m : Text} (hz : EndsMarkup z) :
    z ≠ spanOpening C ++ i ++ spanClosing ++ m := by
  cases hz <;> simp [spanOpening]

namespace Reads

variable {m m' z z' : Text} {rs rs' : List Run}

/-- **A markup is read in one way,** also where it ends at a tag that closes an element. -/
theorem append_inj (hz : EndsMarkup z) (hz' : EndsMarkup z') (h : Reads m rs)
    (h' : Reads m' rs') (heq : m ++ z = m' ++ z') : rs = rs' ∧ z = z' := by
  induction h generalizing m' rs' with
  | nil =>
    cases h' with
    | nil => exact ⟨rfl, heq⟩
    | char hc _ => exact absurd (heq.trans (List.append_assoc ..)) (hz.ne_written hc)
    | span _ _ _ => exact absurd (heq.trans (List.append_assoc ..)) hz.ne_span
  | @char c e m rs hc _ ih =>
    rw [List.append_assoc] at heq
    cases h' with
    | nil => exact absurd heq.symm (hz'.ne_written hc)
    | char hc' h' =>
      rw [List.append_assoc] at heq
      obtain ⟨rfl, heq⟩ := hc.unique hc' heq
      obtain ⟨rfl, rfl⟩ := ih h' heq
      exact ⟨rfl, rfl⟩
    | span _ _ _ => exact absurd (heq.trans (List.append_assoc ..)) hc.ne_span
  | @span C i t m rs hC hi _ ih =>
    rw [List.append_assoc _ m z] at heq
    cases h' with
    | nil => exact absurd heq.symm hz'.ne_span
    | char hc' _ => exact absurd (heq.trans (List.append_assoc ..)).symm hc'.ne_span
    | @span _ _ _ m' _ hC' hi' h' =>
      rw [List.append_assoc _ m' z'] at heq
      obtain ⟨rfl, rfl, heq⟩ := span_inj hC hC' hi hi' heq
      obtain ⟨rfl, rfl⟩ := ih h' heq
      exact ⟨rfl, rfl⟩

/-- A markup has one reading. -/
theorem unique (h : Reads m rs) (h' : Reads m rs') : rs = rs' :=
  (h.append_inj .nil .nil h' rfl).1

/-- **Tags stand around spans and nowhere else:** each span has two, and no other `<` or
`>` is in the markup. -/
theorem count_eq {d : Char} (h : Reads m rs) (hd : d = '<' ∨ d = '>') :
    m.count d = 2 * rs.countP Run.isSpan := by
  have hdel : d ∈ delimiters := by rcases hd with rfl | rfl <;> decide
  induction h with
  | nil => rfl
  | char hc _ ih =>
    rw [List.count_append, List.count_eq_zero.2 (hc.not_mem hdel), ih, Run.countP_isSpan_join]
    simp [Run.isSpan]
  | @span C i t m rs hC hi _ ih =>
    have hclass : C.toList.count d = 0 := List.count_eq_zero.2 (hC d hdel)
    have hinner : i.count d = 0 := List.count_eq_zero.2 (hi.not_mem hdel)
    have htags : (spanOpening C).count d + spanClosing.count d = 2 := by
      rcases hd with rfl | rfl <;> simp [spanOpening, spanClosing, hclass]
    have hspan : (⟨some C, t⟩ :: rs).countP Run.isSpan = rs.countP Run.isSpan + 1 :=
      List.countP_cons_of_pos rfl
    rw [List.count_append, List.count_append, List.count_append, hinner, ih, hspan]
    omega

/-- Coded text in front of a markup. -/
theorem text (t : Text) (h : Reads m rs) : Reads (escape t ++ m) (Run.join ⟨none, t⟩ rs) := by
  induction t with
  | nil => exact h
  | cons c t ih =>
    rw [escape_cons, List.append_assoc, ← Run.join_cons_text]
    exact .char (writes_escapeChar c) ih

end Reads

/-! ## What pieces and tokens are read as -/

namespace Piece

/-- What a reader sees of a piece. -/
def run : Piece → Run
  | .text t => ⟨none, t⟩
  | .equals => ⟨none, ['=']⟩
  | .span className t => ⟨some className, t⟩

/-- Whether the class of a piece, if it has one, can stand between quotes. -/
def IsQuotable (p : Piece) : Prop :=
  ∀ className ∈ p.run.className, ∀ d ∈ delimiters, d ∉ className.toList

end Piece

namespace Reads

variable {m : Text} {rs : List Run}

/-- The markup of a piece in front of a markup. -/
theorem piece {p : Piece} (hp : p.IsQuotable) (h : Reads m rs) :
    Reads (p.markup ++ m) (Run.join p.run rs) := by
  cases p with
  | text t => exact h.text t
  | equals => exact h.text ['=']
  | span className t =>
    have helement : (Piece.span className t).markup =
        spanOpening className ++ escape t ++ spanClosing := by
      simp [Piece.markup, Piece.element, spanOpening, spanClosing]
    rw [helement]
    exact .span (hp className rfl) (coded_escape t) h

/-- **The markup of pieces is read as their runs,** text outside spans put together. -/
theorem pieces {ps : List Piece} (hps : ∀ p ∈ ps, p.IsQuotable) :
    Reads (ps.flatMap Piece.markup) (Run.joined (ps.map Piece.run)) := by
  induction ps with
  | nil => exact .nil
  | cons p ps ih =>
    rw [List.flatMap_cons]
    exact (ih fun p' hp' => hps p' (List.mem_cons_of_mem p hp')).piece
      (hps p (List.mem_cons_self ..))

end Reads

/-- What a reader sees of a quotation. -/
def quotationRuns (s : RenderSettings) (q : Quotation) : List Run :=
  let className := Role.string.className s.classStyle
  if s.quotesInside then [⟨some className, q.opening :: q.body ++ [q.closing]⟩]
  else [⟨none, [q.opening]⟩, ⟨some className, q.body⟩, ⟨none, [q.closing]⟩]

/-- What a reader sees of a token. -/
def tokenRuns (s : RenderSettings) : Token → List Run
  | .connective k => [⟨some (Role.keyword.className s.classStyle), k.word⟩]
  | .field f none => [⟨some (Role.key.className s.classStyle), f.key⟩]
  | .field f (some q) =>
    ⟨some (Role.key.className s.classStyle), f.key⟩ :: ⟨none, ['=']⟩ :: quotationRuns s q
  | .quotation q => quotationRuns s q
  | .plain t => [⟨none, t⟩]

/-- A class without delimiters can stand between quotes. -/
theorem isQuotable_span {className : String}
    (h : (delimiters.all fun d => !className.toList.contains d) = true) (t : Text) :
    (Piece.span className t).IsQuotable := by
  intro className' hclass
  obtain rfl := Option.some.inj hclass
  exact fun d hd => by simpa using List.all_eq_true.1 h d hd

/-- The class of a role can. -/
theorem isQuotable_role (style : ClassStyle) (r : Role) (t : Text) :
    (Piece.span (r.className style) t).IsQuotable := by
  refine isQuotable_span ?_ t
  cases style <;> cases r <;> decide

variable (s : RenderSettings)

/-- The pieces of a quotation are read as its runs. -/
theorem map_run_quotationPieces (q : Quotation) :
    (quotationPieces s q).map Piece.run = quotationRuns s q := by
  unfold quotationPieces quotationRuns
  split <;> rfl

/-- The pieces of a token are read as its runs. -/
theorem map_run_tokenPieces (x : Token) : (tokenPieces s x).map Piece.run = tokenRuns s x := by
  match x with
  | .connective k => rfl
  | .field f none => rfl
  | .field f (some q) =>
    rw [tokenPieces, tokenRuns, List.map_cons, List.map_cons, map_run_quotationPieces]
    rfl
  | .quotation q => exact map_run_quotationPieces s q
  | .plain t => rfl

/-- The classes of a quotation can stand between quotes. -/
theorem isQuotable_of_mem_quotationPieces {q : Quotation} {p : Piece}
    (h : p ∈ quotationPieces s q) : p.IsQuotable := by
  unfold quotationPieces at h
  split at h
  · obtain rfl := List.mem_singleton.1 h
    exact isQuotable_role _ _ _
  · simp only [List.mem_cons, List.not_mem_nil, or_false] at h
    rcases h with rfl | rfl | rfl
    · exact fun _ hclass => nomatch hclass
    · exact isQuotable_role _ _ _
    · exact fun _ hclass => nomatch hclass

/-- The classes of a token can. -/
theorem isQuotable_of_mem_tokenPieces {x : Token} {p : Piece} (h : p ∈ tokenPieces s x) :
    p.IsQuotable := by
  match x, h with
  | .connective k, h =>
    obtain rfl := List.mem_singleton.1 h
    exact isQuotable_role _ _ _
  | .field f none, h =>
    obtain rfl := List.mem_singleton.1 h
    exact isQuotable_role _ _ _
  | .field f (some q), h =>
    rcases List.mem_cons.1 h with rfl | h
    · exact isQuotable_role _ _ _
    · rcases List.mem_cons.1 h with rfl | h
      · exact fun _ hclass => nomatch hclass
      · exact isQuotable_of_mem_quotationPieces s h
  | .quotation q, h => exact isQuotable_of_mem_quotationPieces s h
  | .plain t, h =>
    obtain rfl := List.mem_singleton.1 h
    exact fun _ hclass => nomatch hclass

/-- The runs of a token hold its source text. -/
theorem flatMap_text_tokenRuns (x : Token) : (tokenRuns s x).flatMap Run.text = x.text := by
  have hquotation (q : Quotation) : (quotationRuns s q).flatMap Run.text = q.text := by
    unfold quotationRuns
    split <;> simp [Quotation.text]
  match x with
  | .connective k => exact List.append_nil _
  | .field f none => exact List.append_nil _
  | .field f (some q) =>
    rw [tokenRuns, List.flatMap_cons, List.flatMap_cons, hquotation]
    rfl
  | .quotation q => exact hquotation q
  | .plain t => exact List.append_nil _

/-- A token is one span, a field with a value two, and plain text none. -/
theorem countP_isSpan_tokenRuns (x : Token) :
    (tokenRuns s x).countP Run.isSpan =
      (if x.isPlain then 0 else 1) + if x.isFieldPair then 1 else 0 := by
  have hquotation (q : Quotation) : (quotationRuns s q).countP Run.isSpan = 1 := by
    unfold quotationRuns
    split <;> rfl
  match x with
  | .connective k => rfl
  | .field f none => rfl
  | .field f (some q) =>
    rw [tokenRuns, List.countP_cons_of_pos rfl, List.countP_cons_of_neg (by decide), hquotation]
    rfl
  | .quotation q => exact hquotation q
  | .plain t => rfl

/-- **The markup of a query is read as the runs of its tokens.** -/
theorem reads_queryMarkup (tokens : TokenSequence) :
    Reads (queryMarkup s tokens) (Run.joined (tokens.values.flatMap (tokenRuns s))) := by
  have hruns : tokens.values.flatMap (tokenRuns s) = (queryPieces s tokens).map Piece.run := by
    rw [queryPieces, List.map_flatMap]
    simp only [map_run_tokenPieces]
  rw [hruns]
  refine Reads.pieces fun p hp => ?_
  obtain ⟨x, -, hx⟩ := List.mem_flatMap.1 hp
  exact isQuotable_of_mem_tokenPieces s hx

/-- Tokens have as many spans as there are of them highlighted, and one more for each field with a
value. -/
theorem countP_isSpan_flatMap (ts : List Token) :
    (ts.flatMap (tokenRuns s)).countP Run.isSpan =
      ts.countP (fun x => !x.isPlain) + ts.countP Token.isFieldPair := by
  induction ts with
  | nil => rfl
  | cons x ts ih =>
    rw [List.flatMap_cons, List.countP_append, ih, countP_isSpan_tokenRuns, List.countP_cons,
      List.countP_cons]
    cases x.isPlain <;> simp <;> omega

/-- Both numbers are among the counts of the tokens. -/
theorem highlighted_add_fieldPairs (ts : List Token) :
    (TokenCounts.ofTokens ts).highlighted + (TokenCounts.ofTokens ts).fieldPairs =
      ts.countP (fun x => !x.isPlain) + ts.countP Token.isFieldPair := by
  have hlength := List.length_eq_countP_add_countP (l := ts) Token.isPlain
  rw [TokenCounts.ofTokens, TokenCounts.foldl_record]
  simp [TokenCounts.highlighted] at hlength ⊢
  omega

/-- **A reader of a rendered query sees its tokens, and only that.**  A query is rendered
whenever a text can have twice the bytes that the query is said to have, or what that wraps
around to.  Its markup has one reading then: the runs of its tokens, and no tag around or
between them but those of their spans.  The runs hold the text of the tokens, and there are as
many spans as there are highlighted tokens and fields with a value. -/
theorem reads_renderQuery_iff (o : Overflow) (s : RenderSettings) (tokens : TokenSequence) :
    let runs := Run.joined (tokens.values.flatMap (tokenRuns s))
    ((renderQuery o s tokens).value?.isSome ↔
        (o = .faults → tokens.sourceSize * 2 ≤ Limits.textSize) ∧
          (o = .wraps → tokens.sourceSize * 2 % UInt64.size ≤ Limits.textSize)) ∧
      (∀ html, (renderQuery o s tokens).value? = some html →
        (∀ rs, Reads html rs ↔ rs = runs) ∧
          ∀ d, d = '<' ∨ d = '>' → html.count d = 2 * runs.countP Run.isSpan) ∧
      runs.flatMap Run.text = tokens.text ∧
      (∀ t, tokens.rebuilt? = some t → runs.flatMap Run.text = t) ∧
      runs.countP Run.isSpan = tokens.counts.highlighted + tokens.counts.fieldPairs := by
  intro runs
  have hreads := reads_queryMarkup s tokens
  have htext : runs.flatMap Run.text = tokens.text := by
    rw [Run.flatMap_text_joined, List.flatMap_assoc]
    simp only [flatMap_text_tokenRuns]
    rfl
  refine ⟨?_, fun html hhtml => ?_, htext, fun t ht => ?_, ?_⟩
  · rw [value?_renderQuery, Option.isSome_map, isSome_markupRoom?_iff]
  · rw [value?_renderQuery] at hhtml
    obtain ⟨-, -, rfl⟩ := Option.map_eq_some_iff.1 hhtml
    refine ⟨fun rs => ⟨fun h => h.unique hreads, ?_⟩, fun d hd => hreads.count_eq hd⟩
    rintro rfl
    exact hreads
  · rw [TokenSequence.rebuilt?] at ht
    split at ht
    · exact htext.trans (Option.some.inj ht)
    · cases ht
  · rw [Run.countP_isSpan_joined, countP_isSpan_flatMap, TokenSequence.counts]
    exact (highlighted_add_fieldPairs _).symm

/-- The token `a` is not rendered in a sequence that says its source has `2 ^ 64 - 1` bytes. -/
theorem renderQuery_of_unchecked_size :
    let x : Located Token := ⟨.plain ['a'], ⟨⟨0, 1, 1⟩, ⟨1, 1, 2⟩⟩⟩
    let tokens : TokenSequence := ⟨[x], Nat.pow 2 64 - 1⟩
    let s : RenderSettings := ⟨.plain, true⟩
    tokens.coverageFault? ['a'] = none ∧ Reads ['a'] [⟨none, ['a']⟩] ∧
      (renderQuery .faults s tokens).value? = none ∧
      (renderQuery .wraps s tokens).value? = none := by
  refine ⟨by decide, ?_, by decide, by decide⟩
  exact reads_queryMarkup ⟨.plain, true⟩ ⟨[⟨.plain ['a'], ⟨⟨0, 1, 1⟩, ⟨1, 1, 2⟩⟩⟩], 1⟩

end Html
end SearchMarkup
