/-
# Segments of a snippet

A snippet is split from the left. A marked segment runs from an open tag to the first
close tag after it; what lies between marked segments is unmarked. An open tag without
a close tag ends the search: it stays in the last unmarked segment, as does everything
after it. Unmarked segments are never empty, unless the snippet is.

Two things are worth reporting: an open tag that nothing closes, with its byte offset,
and an unmarked segment that holds a close tag. When the two tags are the same, every
tag opens, and the latter is not reported.
-/

import SearchMarkup.Marking.Tags

namespace SearchMarkup

/-- A piece of a snippet. -/
structure Segment where
  marked : Bool
  text : Text
  deriving DecidableEq, Repr

/-- A tag without a partner. -/
inductive TagFinding where
  /-- An open tag that nothing closes, at a byte offset of the snippet. -/
  | danglingOpen (offset : Nat)
  /-- Unmarked text that holds a close tag. -/
  | strayClose (text : Text)
  deriving DecidableEq, Repr

/-- The segments of a snippet and what was found on the way. -/
structure Extraction where
  segments : List Segment
  findings : List TagFinding
  deriving DecidableEq, Repr

namespace Extraction

/-- The finding about an unmarked text, if any. -/
def strayCloses (tags : MarkerTags) (t : Text) : List TagFinding :=
  if tags.opening ≠ tags.closing ∧ t.contains tags.closing then [.strayClose t] else []

/-- Puts an unmarked text in front. -/
def consUnmarked (tags : MarkerTags) (t : Text) (x : Extraction) : Extraction where
  segments := ⟨false, t⟩ :: x.segments
  findings := strayCloses tags t ++ x.findings

/-- Puts a marked text in front. -/
def consMarked (t : Text) (x : Extraction) : Extraction :=
  { x with segments := ⟨true, t⟩ :: x.segments }

/-- What remains after the last complete pair of tags: one unmarked segment, left out
when it is empty and there are segments before it. -/
def ofRemainder (tags : MarkerTags) (first : Bool) (t : Text) : Extraction :=
  if t.isEmpty && !first then ⟨[], []⟩ else consUnmarked tags t ⟨[], []⟩

/-- Splits the text after a byte offset; `first` says that no segment precedes it. -/
def extractFrom (tags : MarkerTags) (first : Bool) (offset : Nat) (t : Text) : Extraction :=
  match _ho : Text.splitAtFirst? tags.opening t with
  | none => ofRemainder tags first t
  | some (before, inner) =>
    match _hc : Text.splitAtFirst? tags.closing inner with
    | none =>
      let last := ofRemainder tags first t
      { last with findings := .danglingOpen (offset + before.size) :: last.findings }
    | some (marked, rest) =>
      let later :=
        extractFrom tags false
          (offset + before.size + tags.opening.size + marked.size + tags.closing.size) rest
      let x := consMarked marked later
      if before.isEmpty then x else consUnmarked tags before x
  termination_by t.length
  decreasing_by
    have h₁ := congrArg List.length (Text.eq_append_of_splitAtFirst? _ho)
    have h₂ := congrArg List.length (Text.eq_append_of_splitAtFirst? _hc)
    have h₃ := List.length_pos_iff.2 tags.opening_ne_nil
    simp only [List.length_append] at h₁ h₂
    omega

/-- The segments of a snippet. -/
def ofText (tags : MarkerTags) (t : Text) : Extraction := extractFrom tags true 0 t

end Extraction

namespace Segment

/-- The text of one segment with the tags that marked it. -/
def rejoin (tags : MarkerTags) (s : Segment) : Text :=
  if s.marked then tags.wrap s.text else s.text

/-- The snippet that segments stand for. -/
def rejoinAll (tags : MarkerTags) (segments : List Segment) : Text :=
  segments.flatMap (rejoin tags)

/-- The texts of segments without any tags. -/
def plainText (segments : List Segment) : Text := segments.flatMap Segment.text

@[simp] theorem rejoinAll_nil (tags : MarkerTags) : rejoinAll tags [] = [] := rfl

/-- Segments are joined one by one. -/
@[simp] theorem rejoinAll_cons (tags : MarkerTags) (s : Segment) (segments : List Segment) :
    rejoinAll tags (s :: segments) = s.rejoin tags ++ rejoinAll tags segments := rfl

@[simp] theorem plainText_nil : plainText [] = [] := rfl

@[simp] theorem plainText_cons (s : Segment) (segments : List Segment) :
    plainText (s :: segments) = s.text ++ plainText segments := rfl

end Segment
end SearchMarkup
