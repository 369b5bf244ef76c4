/-
# Events in JSON

An event as one JSON object on a line, its members in the order of their names. An
error also says what the catalog knows about it.
-/

import SearchMarkup.Journal.Event
import SearchMarkup.Journal.Moment
import SearchMarkup.Json.Value

namespace SearchMarkup
namespace Event

/-- The member about the span, if there is one. -/
def spanMembers (e : Event) : List (String × Json) :=
  match e.span with
  | none => []
  | some s =>
    [("span", .obj [
      ("end_column", .nat s.stop.column.toNat), ("end_line", .nat s.stop.line.toNat),
      ("end_offset", .nat s.stop.offset), ("start_column", .nat s.start.column.toNat),
      ("start_line", .nat s.start.line.toNat), ("start_offset", .nat s.start.offset)])]

/-- An event at a moment. -/
def toJson (e : Event) (moment : Moment) : Json :=
  .obj ([("category", .str e.entry.category), ("code", .str e.code)]
    ++ (if e.context.isEmpty then []
        else [("context", .obj (e.context.map fun (name, value) => (name, .str value)))])
    ++ (if e.level = .error then
          [("error_metadata", .obj [("description", .str e.entry.description),
            ("recommended_action", .str e.entry.action),
            ("recoverable", .bool e.entry.recoverable)])]
        else [])
    ++ [("level", .str e.level.name), ("message", .str e.message),
      ("severity", .str e.entry.severity.name)]
    ++ e.spanMembers
    ++ [("timestamp", .str moment.text)])

/-- The line of an event in a journal kept as JSON. -/
def jsonLine (e : Event) (moment : Moment) : String := String.ofList (e.toJson moment).compact

end Event
end SearchMarkup
