/-
# Settings in JSON

Settings are written with all their members, and are read like any record: from an
object that has them all, or from an array of their values in order.

An overlay is laid over settings as they are written, and the result is read again:

| overlay | over an object | over another value |
| --- | --- | --- |
| `null` | nothing changes | nothing changes |
| an object | member by member | takes its place |
| another value | takes its place | takes its place |
-/

import SearchMarkup.Codec.Record
import SearchMarkup.Settings

namespace SearchMarkup

namespace Json

mutual

/-- A value with an overlay laid over it. -/
def overlay : Json → Json → Json
  | base, null => base
  | obj ms, obj changes => obj (overlayMembers ms (obj changes))
  | _, j => j

/-- Members with the members of the same names laid over them. -/
def overlayMembers : List (String × Json) → Json → List (String × Json)
  | [], _ => []
  | (name, value) :: ms, changes =>
    (name,
      match changes.get? name with
      | none => value
      | some change => overlay value change) :: overlayMembers ms changes

end

end Json

namespace ScanSettings

def toJson (s : ScanSettings) : Json :=
  .obj [("collect_detailed_metrics", .bool s.countTokens),
    ("log_degraded_classifications", .bool s.reportNearMisses),
    ("include_position_in_events", .bool s.reportSpans)]

def ofJson? (j : Json) : Option ScanSettings :=
  match j.record? ["collect_detailed_metrics", "log_degraded_classifications",
      "include_position_in_events"] with
  | some [some counts, some misses, some spans] => do
    return ⟨← counts.bool?, ← misses.bool?, ← spans.bool?⟩
  | _ => none

def overlay (base : ScanSettings) (j : Json) : Option ScanSettings :=
  ofJson? (base.toJson.overlay j)

end ScanSettings

namespace MarkingSettings

def toJson (s : MarkingSettings) : Json :=
  .obj [("open_tag", .text s.openTag), ("close_tag", .text s.closeTag),
    ("log_malformed_tags", .bool s.reportMalformed)]

def ofJson? (j : Json) : Option MarkingSettings :=
  match j.record? ["open_tag", "close_tag", "log_malformed_tags"] with
  | some [some opening, some closing, some malformed] => do
    return ⟨← opening.text?, ← closing.text?, ← malformed.bool?⟩
  | _ => none

def overlay (base : MarkingSettings) (j : Json) : Option MarkingSettings :=
  ofJson? (base.toJson.overlay j)

end MarkingSettings

namespace ClassStyle

def tag : ClassStyle → String
  | .prism => "Prism"
  | .plain => "Plain"

def ofJson? (j : Json) : Option ClassStyle :=
  j.name?.bind fun name => [prism, plain].find? fun s => s.tag == name

end ClassStyle

namespace RenderSettings

def toJson (s : RenderSettings) : Json :=
  .obj [("class_style", .str s.classStyle.tag),
    ("quotes_inside_value_span", .bool s.quotesInside)]

def ofJson? (j : Json) : Option RenderSettings :=
  match j.record? ["class_style", "quotes_inside_value_span"] with
  | some [some style, some quotes] => do return ⟨← ClassStyle.ofJson? style, ← quotes.bool?⟩
  | _ => none

def overlay (base : RenderSettings) (j : Json) : Option RenderSettings :=
  ofJson? (base.toJson.overlay j)

end RenderSettings

namespace Level

/-- The name of a level in JSON. -/
def tag : Level → String
  | .error => "Error"
  | .warning => "Warning"
  | .info => "Info"
  | .debug => "Debug"

def ofJson? (j : Json) : Option Level :=
  j.name?.bind fun name => [error, warning, info, debug].find? fun l => l.tag == name

end Level

namespace JournalSettings

def toJson (s : JournalSettings) : Json :=
  .obj [("use_structured_logging", .bool s.structured),
    ("enable_console_logging", .bool s.console), ("min_log_level", .str s.level.tag),
    ("log_performance_events", .bool s.timings)]

def ofJson? (j : Json) : Option JournalSettings :=
  match j.record? ["use_structured_logging", "enable_console_logging", "min_log_level",
      "log_performance_events"] with
  | some [some structured, some console, some level, some timings] => do
    return ⟨← structured.bool?, ← console.bool?, ← Level.ofJson? level, ← timings.bool?⟩
  | _ => none

def overlay (base : JournalSettings) (j : Json) : Option JournalSettings :=
  ofJson? (base.toJson.overlay j)

end JournalSettings

namespace Settings

def toJson (s : Settings) : Json :=
  .obj [("lexical", s.scan.toJson), ("markers", s.marking.toJson),
    ("render", s.render.toJson), ("logging", s.journal.toJson)]

def ofJson? (j : Json) : Option Settings :=
  match j.record? ["lexical", "markers", "render", "logging"] with
  | some [some scan, some marking, some render, some journal] => do
    return ⟨← ScanSettings.ofJson? scan, ← MarkingSettings.ofJson? marking,
      ← RenderSettings.ofJson? render, ← JournalSettings.ofJson? journal⟩
  | _ => none

def overlay (base : Settings) (j : Json) : Option Settings :=
  ofJson? (base.toJson.overlay j)

end Settings
end SearchMarkup
