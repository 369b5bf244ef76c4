/-
# Where an open tag stays open

The search for marked texts ends at the first open tag that nothing closes.  It stays in the
last segment, which is unmarked and holds everything from there on; so in the snippet the tag
stands behind what the other segments are joined to and behind what leads up to it in the last
(`OpenEnd`).

Its place is also the size of the snippet less that of what is left to be split, and the byte at
which the tag is found in that.  What is left is always the end of the snippet, so neither this
difference nor the sum leaves the snippet (`Offsets.splitFrom_eq`).

The report of such a tag is the only one under its code (`Extractor.filter_reports`); whether
reports are made is not seen in the segments or the metrics.
-/

import SearchMarkup.Application
import SearchMarkup.Marking.Offsets
import SearchMarkup.Proofs.Marking.Metrics
import Mathlib

namespace SearchMarkup

variable {tags : MarkerTags}

/-- A text is found nowhere if there is no split around it. -/
theorem Text.findText?_eq_none_iff {p t : Text} : findText? t p = none ↔ splitAtFirst? p t = none :=
  Option.map_eq_none_iff

/-- A text is found at the end of what is before it. -/
theorem Text.findText?_of_splitAtFirst? {p t a b : Text} (h : splitAtFirst? p t = some (a, b)) :
    findText? t p = some a.size := by
  rw [findText?, h]
  rfl

namespace Extraction

/-! ## Splitting by offsets -/

/-- What follows may be put together in any order. -/
theorem followedBy_assoc (x y z : Extraction) :
    (x.followedBy y).followedBy z = x.followedBy (y.followedBy z) := by
  simp [followedBy]

/-- An unmarked segment at the end is one in front of what follows. -/
theorem pushUnmarked_followedBy (x y : Extraction) (t : Text) :
    (x.pushUnmarked tags t).followedBy y = x.followedBy (consUnmarked tags t y) := by
  simp [pushUnmarked, followedBy, consUnmarked]

/-- So is a marked one. -/
theorem pushMarked_followedBy (x y : Extraction) (t : Text) :
    (x.pushMarked t).followedBy y = x.followedBy (consMarked t y) := by
  simp [pushMarked, followedBy, consMarked]

/-- A text is what is before a pair of tags, the pair, and what is after it. -/
theorem eq_wrap_of_splitAtFirst? {t u inner m rest : Text}
    (ho : tags.opening.splitAtFirst? t = some (u, inner))
    (hc : tags.closing.splitAtFirst? inner = some (m, rest)) : t = u ++ tags.wrap m ++ rest := by
  rw [Text.eq_append_of_splitAtFirst? ho, Text.eq_append_of_splitAtFirst? hc]
  simp [MarkerTags.wrap]

/-- Where both tags are found in what is left, the rest is still the end of the snippet. -/
theorem eq_append_wrap {t a u inner m rest later : Text} {offset : Nat}
    (ho : tags.opening.splitAtFirst? rest = some (u, inner))
    (hc : tags.closing.splitAtFirst? inner = some (m, later)) (ht : t = a ++ rest)
    (hoffset : a.size = offset) :
    t = a ++ (u ++ tags.wrap m) ++ later ∧ (a ++ (u ++ tags.wrap m)).size =
      offset + u.size + tags.opening.size + m.size + tags.closing.size := by
  constructor
  · rw [ht, eq_wrap_of_splitAtFirst? ho hc, ← List.append_assoc]
  · simp only [Text.size_append, MarkerTags.size_wrap, hoffset, Nat.add_assoc]

/-- With a segment more there are some. -/
theorem isEmpty_pushMarked (x : Extraction) (t : Text) :
    (x.pushMarked t).segments.isEmpty = false := by
  simp [pushMarked, followedBy, consMarked]

namespace Offsets

/-- The text up to the end of a part is that part. -/
theorem upTo_size (a b : Text) : upTo (a ++ b) a.size = .ok a := by
  simp only [upTo, Text.splitAtByte?_size]

/-- After a part and the tag behind it, what follows is left. -/
theorem onwards_size (a b : Text) {p : Text} (hp : p ≠ []) :
    ∃ h, onwards (a ++ p ++ b) a.size p hp = .ok ⟨b, h⟩ := by
  have hlength : b.length < (a ++ p ++ b).length := by
    have hpos := List.length_pos_iff.2 hp
    simp only [List.length_append]
    omega
  have hcut : (a ++ p ++ b).splitAtByte? (a.size + p.size) = some (a ++ p, b) := by
    rw [← Text.size_append]
    exact Text.splitAtByte?_size (a ++ p) b
  refine ⟨hlength, ?_⟩
  unfold onwards
  split
  · next hcut' =>
    obtain ⟨rfl, rfl⟩ := Prod.mk.inj (Option.some.inj (hcut'.symm.trans hcut))
    rfl
  · next hnone => cases hnone.symm.trans hcut

/-- The bytes before a part are those of the whole less those of the part. -/
theorem difference_size (a b : Text) : difference (a ++ b).size b.size = .ok a.size := by
  rw [difference, Text.size_append, if_pos (Nat.le_add_left ..), Nat.add_sub_cancel]

/-- Two parts of a text have no more bytes than it. -/
theorem sum_size (a b c : Text) :
    sum (a ++ (b ++ c)).size a.size b.size = .ok (a.size + b.size) := by
  rw [sum, if_pos]
  simp only [Text.size_append]
  omega

/-- An unmarked segment is added unless it is empty. -/
theorem pushUpTo_size (tags : MarkerTags) (x : Extraction) (a b : Text) :
    pushUpTo tags x (a ++ b) a.size =
      .ok (if a.isEmpty then x else x.pushUnmarked tags a) := by
  rw [pushUpTo, upTo_size]
  cases a with
  | nil => rfl
  | cons c a =>
    have hpos := c.utf8Size_pos
    rw [Text.size_cons, if_neg (by omega)]
    rfl

/-- Without a further pair of tags the rest is one unmarked segment. -/
theorem finish_eq (x : Extraction) (t : Text) :
    finish tags x t = x.followedBy (ofRemainder tags x.segments.isEmpty t) := by
  unfold finish ofRemainder
  split
  · simp [followedBy]
  · rfl

/-- Where both tags are found, the texts before and between them are put at the end. -/
theorem splitFrom_of_some {t rest u inner m later : Text} (x : Extraction)
    (ho : tags.opening.splitAtFirst? rest = some (u, inner))
    (hc : tags.closing.splitAtFirst? inner = some (m, later)) :
    splitFrom tags t x rest =
      splitFrom tags t ((if u.isEmpty then x else x.pushUnmarked tags u).pushMarked m) later := by
  have hrest := Text.eq_append_of_splitAtFirst? ho
  have hinner := Text.eq_append_of_splitAtFirst? hc
  obtain ⟨h, honwards⟩ := onwards_size u inner tags.opening_ne_nil
  obtain ⟨h', honwards'⟩ := onwards_size m later tags.closing_ne_nil
  have hbefore := pushUpTo_size tags x u (tags.opening ++ inner)
  have hbetween := upTo_size m (tags.closing ++ later)
  rw [← List.append_assoc] at hbefore hbetween
  rw [splitFrom, Text.findText?_of_splitAtFirst? ho]
  subst hrest
  simp only [honwards, SplitFault.ok_bind, Text.findText?_of_splitAtFirst? hc, hbefore]
  subst hinner
  simp only [honwards', hbetween, SplitFault.ok_bind]

/-- **What is left is split as it is without offsets,** and no cut, difference or sum fails. -/
theorem splitFrom_eq (tags : MarkerTags) (t rest : Text) (first : Bool) (offset : Nat) :
    ∀ (a : Text) (x : Extraction), t = a ++ rest → a.size = offset → x.segments.isEmpty = first →
      splitFrom tags t x rest = .ok (x.followedBy (extractFrom tags first offset rest)) := by
  -- While the rest gets shorter, `a` and what was found grow, so both stay general.
  fun_induction extractFrom tags first offset rest with
  | case1 first offset rest hn =>
    intro a x ht hoffset hfirst
    rw [splitFrom, Text.findText?_eq_none_iff.2 hn, ← hfirst, ← finish_eq]
  | case2 first offset rest u inner ho hn =>
    rintro a x rfl rfl rfl
    have hrest := Text.eq_append_of_splitAtFirst? ho
    obtain ⟨h, hinner⟩ := onwards_size u inner tags.opening_ne_nil
    have hsum := sum_size a u (tags.opening ++ inner)
    rw [← List.append_assoc u] at hsum
    have hsegments : (x.followedBy ⟨[], [.danglingOpen (a.size + u.size)]⟩).segments =
        x.segments := List.append_nil _
    rw [splitFrom, Text.findText?_of_splitAtFirst? ho]
    subst hrest
    simp only [hinner, SplitFault.ok_bind, Text.findText?_eq_none_iff.2 hn, difference_size, hsum,
      SplitFault.pure_eq, finish_eq, hsegments, followedBy_assoc]
    rfl
  | case3 first offset rest u inner ho m later hc found found' hu ih =>
    intro a x ht hoffset hfirst
    obtain ⟨hlater, hsize⟩ := eq_append_wrap ho hc ht hoffset
    have hnonempty : (x.pushMarked m).segments.isEmpty = false := isEmpty_pushMarked ..
    rw [splitFrom_of_some x ho hc, if_pos hu, ih _ _ hlater hsize hnonempty, pushMarked_followedBy]
  | case4 first offset rest u inner ho m later hc found found' hu ih =>
    intro a x ht hoffset hfirst
    obtain ⟨hlater, hsize⟩ := eq_append_wrap ho hc ht hoffset
    have hnonempty : ((x.pushUnmarked tags u).pushMarked m).segments.isEmpty = false :=
      isEmpty_pushMarked ..
    rw [splitFrom_of_some x ho hc, if_neg hu, ih _ _ hlater hsize hnonempty, pushMarked_followedBy,
      pushUnmarked_followedBy]

/-- **By offsets a snippet is split as it is without them.** -/
theorem split_eq (tags : MarkerTags) (t : Text) : split tags t = .ok (ofText tags t) :=
  splitFrom_eq tags t t true 0 [] ⟨[], []⟩ rfl rfl rfl

end Offsets
end Extraction

/-! ## Where the last segment is open -/

/-- Segments of which the last is unmarked and has an open tag with no close tag after it. -/
structure OpenEnd (tags : MarkerTags) where
  /-- The segments before the last. -/
  init : List Segment
  /-- What leads up to the tag in the last segment. -/
  before : Text
  /-- What follows the tag. -/
  after : Text
  leftmost : Text.Leftmost tags.opening (before ++ tags.opening ++ after) before after
  not_closed : ¬tags.closing <:+: after

namespace OpenEnd

variable (d : OpenEnd tags) (s : Segment)

/-- The segments before the open tag, and the one it stands in. -/
def segments : List Segment := d.init ++ [⟨false, d.before ++ tags.opening ++ d.after⟩]

/-- What leads up to the tag in the snippet. -/
def ahead : Text := Segment.rejoinAll tags d.init ++ d.before

/-- The byte of the snippet at which the tag begins. -/
def offset : Nat := d.ahead.size

/-- The snippet. -/
def text : Text := d.ahead ++ tags.opening ++ d.after

/-- One more segment in front. -/
def cons : OpenEnd tags := { d with init := s :: d.init }

/-- A segment in front moves the open end by its bytes. -/
@[simp] theorem offset_cons : (d.cons s).offset = (s.rejoin tags).size + d.offset := by
  simp [offset, ahead, cons]

/-- A segment in front is part of the text. -/
@[simp] theorem text_cons : (d.cons s).text = s.rejoin tags ++ d.text := by
  simp [text, ahead, cons]

end OpenEnd

namespace Extraction

/-- A stray close tag is no dangling open tag. -/
theorem filter_isDangling_strayCloses (tags : MarkerTags) (t : Text) :
    (strayCloses tags t).filter TagFinding.isDangling = [] :=
  List.filter_eq_nil_iff.2 (List.countP_eq_zero.1 (countP_isDangling_strayCloses tags t))

/-- No open tag dangles where there is none. -/
theorem filter_isDangling_ofRemainder (tags : MarkerTags) (first : Bool) (t : Text) :
    (ofRemainder tags first t).findings.filter TagFinding.isDangling = [] :=
  List.filter_eq_nil_iff.2 (List.countP_eq_zero.1 countP_isDangling_ofRemainder)

/-- **At most one open tag is found that nothing closes,** and the last segment is open there. -/
theorem filter_isDangling_extractFrom (tags : MarkerTags) (first : Bool) (offset : Nat) (t : Text) :
    let x := extractFrom tags first offset t
    let found := x.findings.filter TagFinding.isDangling
    found = [] ∨ ∃ d : OpenEnd tags, d.text = t ∧ d.segments = x.segments ∧
      found = [.danglingOpen (offset + d.offset)] := by
  fun_induction extractFrom tags first offset t with
  | case1 first offset t hn => exact .inl (filter_isDangling_ofRemainder tags first t)
  | case2 first offset t u inner ho hn last =>
    have hleftmost := Text.splitAtFirst?_eq_some_iff.1 ho
    obtain rfl := hleftmost.eq_append
    have hsegments : last.segments = [⟨false, u ++ tags.opening ++ inner⟩] := by
      simp [last, ofRemainder, consUnmarked, tags.opening_ne_nil]
    refine .inr ⟨⟨[], u, inner, hleftmost, Text.splitAtFirst?_eq_none_iff.1 hn⟩, rfl,
      hsegments.symm, ?_⟩
    rw [List.filter_cons_of_pos rfl, filter_isDangling_ofRemainder]
    rfl
  | case3 first offset t u inner ho m rest hc later x hu ih =>
    obtain rfl := List.isEmpty_iff.1 hu
    refine ih.imp id ?_
    rintro ⟨d, rfl, hsegments, hfound⟩
    refine ⟨d.cons ⟨true, m⟩, ?_, congrArg _ hsegments, hfound.trans ?_⟩
    · rw [OpenEnd.text_cons, eq_wrap_of_splitAtFirst? ho hc]
      rfl
    · simp [Segment.rejoin, Nat.add_assoc]
  | case4 first offset t u inner ho m rest hc later x hu ih =>
    have hfindings : (consUnmarked tags u x).findings.filter TagFinding.isDangling =
        later.findings.filter TagFinding.isDangling := by
      have happend : (consUnmarked tags u x).findings = strayCloses tags u ++ later.findings := rfl
      rw [happend, List.filter_append, filter_isDangling_strayCloses, List.nil_append]
    refine ih.imp hfindings.trans ?_
    rintro ⟨d, rfl, hsegments, hfound⟩
    refine ⟨(d.cons ⟨true, m⟩).cons ⟨false, u⟩, ?_, ?_, hfindings.trans (hfound.trans ?_)⟩
    · rw [OpenEnd.text_cons, OpenEnd.text_cons, eq_wrap_of_splitAtFirst? ho hc,
        List.append_assoc]
      rfl
    · exact congrArg (⟨false, u⟩ :: ⟨true, m⟩ :: ·) hsegments
    · simp [Segment.rejoin, Nat.add_assoc]

end Extraction

/-! ## The report -/

/-- Whether an event is the report of an open tag that nothing closes. -/
def Event.isDangling (e : Event) : Bool := e.code == .danglingOpenTag

/-- A finding and its report are about the same tag. -/
theorem TagFinding.isDangling_event (f : TagFinding) : f.event.isDangling = f.isDangling := by
  cases f <;> rfl

namespace Extractor

/-- **Of the reports about a text, those of open tags are those of its findings,** if malformed
tags are reported. -/
theorem filter_reports (x : Extractor) (t : Text) :
    (x.extract t).events.filter Event.isDangling =
      if x.settings.reportMalformed then
        ((Extraction.ofText x.tags t).findings.filter TagFinding.isDangling).map TagFinding.event
      else [] := by
  unfold extract
  split
  · rw [List.filter_map]
    exact congrArg _ (List.filter_congr fun f _ => f.isDangling_event)
  · rfl

/-- What is counted are the findings about open tags. -/
theorem danglingOpens_extract (x : Extractor) (t : Text) :
    (x.extract t).value.2.metrics.danglingOpens = x.metrics.danglingOpens +
      ((Extraction.ofText x.tags t).findings.filter TagFinding.isDangling).length := by
  simp [extract, ExtractionMetrics.record, ExtractionMetrics.foldl_recordFinding,
    List.countP_eq_length_filter]

/-- **What an extractor reports of an open tag that nothing closes,** as far as it gets past a
journal kept at debugging.  A snippet is split by byte offsets to the same segments and with the
same reports.  Of the tag there is no report, or one and one more is counted; then the last
segment is open, and the report holds the byte of the snippet at which its first open tag
begins.  There is none if no reports are asked for, and this changes neither the segments nor
the metrics. -/
theorem extract_reports_openEnd {p : Application}
    (hp : p.journal.map Journal.kept = some .debug) (tags : MarkerTags) (s : MarkingSettings)
    (m : ExtractionMetrics) (t : Text) :
    let split (report : Bool) :=
      (⟨tags, { s with reportMalformed := report }, m⟩ : Extractor).extract t
    let told (report : Bool) := (p.admitted (split report).events).filter Event.isDangling
    let m' := (split true).value.2.metrics
    (∃ x, Extraction.Offsets.split tags t = .ok x ∧ x.segments = (split true).value.1 ∧
        x.findings.map TagFinding.event = (split true).events) ∧
      (told true = [] ∧ m'.danglingOpens = m.danglingOpens ∨
        ∃ (d : OpenEnd tags) (e : Event), d.text = t ∧ d.segments = (split true).value.1 ∧
          told true = [e] ∧ e.level = .debug ∧ e.context = [("offset", toString d.offset)] ∧
          m'.danglingOpens = m.danglingOpens + 1) ∧
      told false = [] ∧ (split false).value.1 = (split true).value.1 ∧
        (split false).value.2.metrics = m' := by
  intro split told m'
  have htold (report : Bool) : told report = if report then
      ((Extraction.ofText tags t).findings.filter TagFinding.isDangling).map TagFinding.event
      else [] := by
    dsimp only [told]
    rw [Application.admitted_of_kept hp]
    exact filter_reports ..
  have hgrown := danglingOpens_extract ⟨tags, { s with reportMalformed := true }, m⟩ t
  refine ⟨⟨_, Extraction.Offsets.split_eq tags t, rfl, rfl⟩, ?_, htold false, rfl, rfl⟩
  rcases Extraction.filter_isDangling_extractFrom tags true 0 t with hnone | ⟨d, ht, hd, hone⟩
  · rw [Extraction.ofText, hnone] at hgrown htold
    exact .inl ⟨htold true, hgrown⟩
  · rw [Nat.zero_add] at hone
    rw [Extraction.ofText, hone] at hgrown htold
    exact .inr ⟨d, _, ht, hd, htold true, rfl, rfl, hgrown⟩

/-- An open tag after a pair of tags, and one more behind it; each character has two bytes. -/
theorem extract_reports_openEnd_after_pair :
    let p : Application := { journal := some (.buffered .debug) }
    let tags : MarkerTags := ⟨['«'], ['»'], by decide, by decide⟩
    let x : Extractor := ⟨tags, ⟨['«'], ['»'], true⟩, { danglingOpens := 3 }⟩
    let t : Text := ['é', '«', 'µ', '»', 'ö', '«', '«']
    let told := (p.admitted (x.extract t).events).filter Event.isDangling
    p.journal.map Journal.kept = some .debug ∧
      told.map Event.context = [[("offset", "10")]] ∧
      (x.extract t).value.2.metrics.danglingOpens = 4 := by
  intro p tags x t told
  have hp : p.journal.map Journal.kept = some .debug := rfl
  have hfindings : (Extraction.ofText tags t).findings = [.danglingOpen 10] := by cbv
  have htold : told.map Event.context = [[("offset", "10")]] := by
    dsimp only [told]
    rw [Application.admitted_of_kept hp, filter_reports, hfindings]
    rfl
  obtain ⟨-, ⟨hnone, -⟩ | ⟨d, e, -, -, hone, -, -, hgrown⟩, -⟩ :=
    extract_reports_openEnd hp tags x.settings x.metrics t
  · have hnone : told = [] := hnone
    rw [hnone] at htold
    cases htold
  · exact ⟨hp, htold, hgrown⟩

end Extractor
end SearchMarkup
