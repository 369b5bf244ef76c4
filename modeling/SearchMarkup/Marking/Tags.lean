/-
# Marker tags

Snippets arrive with the words that matched a search between an open and a close tag.
Both tags are arbitrary texts that are not empty; they may be the same.
-/

import SearchMarkup.Journal.Catalog
import SearchMarkup.Settings

namespace SearchMarkup

/-- A pair of tags. -/
structure MarkerTags where
  opening : Text
  closing : Text
  opening_ne_nil : opening ≠ []
  closing_ne_nil : closing ≠ []

/-- Why two texts are no pair of tags. -/
inductive TagFault where
  | emptyOpenTag
  | emptyCloseTag
  deriving DecidableEq, Repr

namespace TagFault

def message : TagFault → String
  | .emptyOpenTag => "Open marker tag must not be empty"
  | .emptyCloseTag => "Close marker tag must not be empty"

def code (_ : TagFault) : Code := .invalidTags

end TagFault

namespace MarkerTags

/-- The pair of two texts, unless one is empty; the open tag is looked at first. -/
def ofTexts (opening closing : Text) : Except TagFault MarkerTags :=
  if ho : opening = [] then .error .emptyOpenTag
  else if hc : closing = [] then .error .emptyCloseTag
  else .ok ⟨opening, closing, ho, hc⟩

/-- The pair used when nothing else is asked for. -/
def standard : MarkerTags := ⟨Limits.openTag, Limits.closeTag, by decide, by decide⟩

/-- The pair named in settings. -/
def ofSettings (s : MarkingSettings) : Except TagFault MarkerTags :=
  ofTexts s.openTag s.closeTag

/-- A text between the tags. -/
def wrap (tags : MarkerTags) (t : Text) : Text := tags.opening ++ t ++ tags.closing

/-- A wrapped text has the bytes of the tags as well. -/
@[simp] theorem size_wrap (tags : MarkerTags) (t : Text) :
    (tags.wrap t).size = tags.opening.size + t.size + tags.closing.size := by
  simp [wrap, Nat.add_assoc]

end MarkerTags
end SearchMarkup
