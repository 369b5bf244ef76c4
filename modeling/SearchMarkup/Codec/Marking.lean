/-
# Snippets in JSON

Segments and documents. A document is an object with the members `HIGHLIGHTS` and `AB`,
each of which may be missing or `null`; it may also be an array of at most these two.
-/

import SearchMarkup.Codec.Record
import SearchMarkup.Marking.Snippet

namespace SearchMarkup

namespace Segment

def toJson (s : Segment) : Json := .obj [("marked", .bool s.marked), ("text", .text s.text)]

def ofJson? (j : Json) : Option Segment :=
  match j.record? ["marked", "text"] with
  | some [some marked, some text] => do return ⟨← marked.bool?, ← text.text?⟩
  | _ => none

end Segment

def ExtractionMetrics.toJson (m : ExtractionMetrics) : Json :=
  .obj [("items_processed", .nat m.items), ("segments_emitted", .nat m.segments),
    ("marked_segments", .nat m.marked), ("dangling_open_tags", .nat m.danglingOpens),
    ("stray_close_tags", .nat m.strayCloses)]

def SnippetBody.toJson (b : SnippetBody) : Json :=
  .obj [("source", .str b.source.name),
    ("paragraphs", .list (Json.list Segment.toJson) b.paragraphs)]

namespace SnippetDocument

def toJson (d : SnippetDocument) : Json :=
  .obj [("HIGHLIGHTS", .option (Json.list Json.text) d.highlights),
    ("AB", .option Json.text d.abstractText)]

/-- The document of two values, either of which may be missing. -/
def ofParts? (highlights abstractText : Option Json) : Option SnippetDocument := do
  return ⟨← Json.optional? (Json.list? Json.text?) highlights,
    ← Json.optional? Json.text? abstractText⟩

/-- The document of a value. A member that occurs twice is refused. -/
def ofJson? : Json → Option SnippetDocument
  | .obj ms =>
    if 1 < ms.countP (fun m => m.1 == "HIGHLIGHTS") ∨ 1 < ms.countP (fun m => m.1 == "AB") then
      none
    else ofParts? ((Json.obj ms).get? "HIGHLIGHTS") ((Json.obj ms).get? "AB")
  | .arr [] => ofParts? none none
  | .arr [h] => ofParts? (some h) none
  | .arr [h, a] => ofParts? (some h) (some a)
  | _ => none

end SnippetDocument
end SearchMarkup
