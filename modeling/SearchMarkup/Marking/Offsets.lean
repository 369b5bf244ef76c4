/-
# Splitting by byte offsets

A snippet can also be split as an editor would do it, by the bytes at which tags are found.
What is left to be split gets shorter, and is cut where a tag and the text before it end:

| number | is |
| --- | --- |
| where to cut | the byte at which a tag is found, and the size of the tag |
| what was split off | the size of the snippet less that of what is left |
| the place of a tag | the size of what was split off, and the byte at which the tag is found |

A cut fails if the text has no such place.  A difference fails if it would fall below zero, and
a sum if it would go past the size of the snippet; a word that holds that size holds any other
number here.
-/

import SearchMarkup.Marking.Segment

namespace SearchMarkup

/-- The byte at which the leftmost occurrence of `p` begins. -/
def Text.findText? (t p : Text) : Option Nat := (splitAtFirst? p t).map fun x => x.1.size

/-- Why a split by offsets gives no result. -/
inductive SplitFault where
  /-- A text cannot be cut at a byte. -/
  | cut (byte size : Nat)
  /-- A difference would fall below zero. -/
  | below (m n : Nat)
  /-- A sum would go past the size of the snippet. -/
  | past (m n : Nat)
  deriving DecidableEq, Repr

namespace SplitFault

variable {α β : Type}

/-- A step that succeeds hands its value on. -/
@[simp] theorem ok_bind (a : α) (f : α → Except SplitFault β) : (Except.ok a >>= f) = f a := rfl

/-- A value is a success. -/
@[simp] theorem pure_eq (a : α) : (pure a : Except SplitFault α) = .ok a := rfl

end SplitFault

namespace Extraction

/-- What was found before and after. -/
def followedBy (x y : Extraction) : Extraction where
  segments := x.segments ++ y.segments
  findings := x.findings ++ y.findings

/-- One more unmarked text at the end. -/
def pushUnmarked (tags : MarkerTags) (x : Extraction) (t : Text) : Extraction :=
  x.followedBy (consUnmarked tags t ⟨[], []⟩)

/-- One more marked text at the end. -/
def pushMarked (x : Extraction) (t : Text) : Extraction := x.followedBy (consMarked t ⟨[], []⟩)

namespace Offsets

/-- What is before a byte. -/
def upTo (t : Text) (n : Nat) : Except SplitFault Text :=
  match t.splitAtByte? n with
  | some (a, _) => .ok a
  | none => .error (.cut n t.size)

/-- What follows a tag that is found at a byte. -/
def onwards (t : Text) (n : Nat) (tag : Text) (htag : tag ≠ []) :
    Except SplitFault { later : Text // later.length < t.length } :=
  match h : t.splitAtByte? (n + tag.size) with
  | some (a, later) => .ok ⟨later, by
      obtain ⟨rfl, hsize⟩ := Text.splitAtByte?_eq_some_iff.1 h
      have htag : tag.size ≠ 0 := mt Text.size_eq_zero.1 htag
      have ha : a ≠ [] := mt Text.size_eq_zero.2 (by omega)
      have hpos := List.length_pos_iff.2 ha
      rw [List.length_append]
      omega⟩
  | none => .error (.cut (n + tag.size) t.size)

def difference (m n : Nat) : Except SplitFault Nat :=
  if n ≤ m then .ok (m - n) else .error (.below m n)

/-- A sum that is to be a place of a text of a size. -/
def sum (size m n : Nat) : Except SplitFault Nat :=
  if m + n ≤ size then .ok (m + n) else .error (.past m n)

/-- What remains is the last unmarked segment, unless it is empty and not the first. -/
def finish (tags : MarkerTags) (x : Extraction) (rest : Text) : Extraction :=
  if rest.isEmpty && !x.segments.isEmpty then x else x.pushUnmarked tags rest

/-- One more unmarked text at the end: what is before a byte, if there is anything. -/
def pushUpTo (tags : MarkerTags) (x : Extraction) (t : Text) (n : Nat) :
    Except SplitFault Extraction := do
  if n = 0 then return x
  else return x.pushUnmarked tags (← upTo t n)

/-- Splits what is left of the snippet `t`, after what has been found. -/
def splitFrom (tags : MarkerTags) (t : Text) (x : Extraction) (rest : Text) :
    Except SplitFault Extraction :=
  match rest.findText? tags.opening with
  | none => .ok (finish tags x rest)
  | some openAt => do
    let ⟨inner, _⟩ ← onwards rest openAt tags.opening tags.opening_ne_nil
    match inner.findText? tags.closing with
    | none =>
      let offset ← sum t.size (← difference t.size rest.size) openAt
      return finish tags (x.followedBy ⟨[], [.danglingOpen offset]⟩) rest
    | some closeAt =>
      let x ← pushUpTo tags x rest openAt
      let x := x.pushMarked (← upTo inner closeAt)
      let ⟨later, _⟩ ← onwards inner closeAt tags.closing tags.closing_ne_nil
      splitFrom tags t x later
  termination_by rest.length
  decreasing_by omega

/-- Splits a snippet. -/
def split (tags : MarkerTags) (t : Text) : Except SplitFault Extraction :=
  splitFrom tags t ⟨[], []⟩ t

end Offsets
end Extraction
end SearchMarkup
