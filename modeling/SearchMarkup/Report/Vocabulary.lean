/-
# The vocabulary and limits of the library

A summary for users: the connectives, field keys and quote characters that are known,
the tags that mark snippets, and the limits beyond which warnings are issued.
-/

import SearchMarkup.Limits
import SearchMarkup.Query.Token

namespace SearchMarkup
namespace Vocabulary

/-- The words of a list with commas between them. -/
def listed (words : List String) : String := ", ".intercalate words

/-- The report on vocabulary and limits; `journaled` says whether events are kept. -/
def report (journaled : Bool) : String :=
  "\n".intercalate [
    "Query Highlight Pipeline:",
    "- Operators: " ++ listed (Connective.all.map fun k => String.ofList k.word),
    "- Field Keys: " ++
      listed (Field.all.map fun f => String.ofList f.key ++ " (" ++ f.description ++ ")"),
    "- Quote Characters: " ++ String.ofList quoteChars,
    "- Default Marker Tags: " ++ String.ofList Limits.openTag ++ " "
      ++ String.ofList Limits.closeTag,
    "- Large Query Threshold: " ++ toString Limits.largeQuery ++ " bytes",
    "- Large Item List Threshold: " ++ toString Limits.largeItemList ++ " items",
    "- Configuration: " ++ Limits.origin,
    "- Global Logging: " ++ (if journaled then "true" else "false")]

/-- The vocabulary in one line. -/
def summary : String :=
  toString Connective.all.length ++ " operators, " ++ toString Field.all.length
    ++ " field keys, markers " ++ String.ofList Limits.openTag ++ "..."
    ++ String.ofList Limits.closeTag

end Vocabulary
end SearchMarkup
