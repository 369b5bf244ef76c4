/-
# The catalog of event codes

Every event carries a code. The catalog says what each code means: the area it
belongs to, how severe it is, whether work can go on, and what to do about it. A code
that is not in the catalog counts as recoverable, of medium severity, and unknown.
-/

namespace SearchMarkup

/-- How severe an event is. -/
inductive Severity where
  | critical
  | high
  | medium
  | low
  deriving DecidableEq, Repr

namespace Severity

/-- The place in the order, from 0 for critical. -/
def rank : Severity → Nat
  | .critical => 0
  | .high => 1
  | .medium => 2
  | .low => 3

def name : Severity → String
  | .critical => "Critical"
  | .high => "High"
  | .medium => "Medium"
  | .low => "Low"

end Severity

/-- A stable name for a kind of event. -/
abbrev Code := String

namespace Code

def initializationFailure : Code := "ERR001"
def openQuote : Code := "L001"
def miscasedConnective : Code := "L002"
def unknownKey : Code := "L003"
def missingValue : Code := "L004"
def largeQuery : Code := "L010"
def invalidTags : Code := "M001"
def danglingOpenTag : Code := "M002"
def strayCloseTag : Code := "M003"
def largeItemList : Code := "M010"
def markupEscaped : Code := "R001"
def staleResult : Code := "S001"
def unknownRevision : Code := "S002"
def inputUnreadable : Code := "P001"
def jsonUnreadable : Code := "P002"
def jsonUnwritable : Code := "P003"
def initialized : Code := "I001"
def queryScanned : Code := "I020"
def snippetsSplit : Code := "I030"
def rendered : Code := "I040"
def resultApplied : Code := "I050"
def runCompleted : Code := "I060"

/-- The code of remarks that have none of their own. -/
def remark : Code := "I000"

end Code

/-- What the catalog says about a code. -/
structure CatalogEntry where
  code : Code
  category : String
  severity : Severity
  recoverable : Bool
  description : String
  action : String
  deriving DecidableEq, Repr

namespace Catalog

/-- All known codes. -/
def entries : List CatalogEntry := [
  ⟨.initializationFailure, "System", .critical, false,
    "Logging or configuration initialization failed",
    "Check runtime preferences and initialization order"⟩,
  ⟨.openQuote, "Lexical", .low, true,
    "Quote character has no closing quote; treated as plain text",
    "Close the quoted phrase"⟩,
  ⟨.miscasedConnective, "Lexical", .low, true,
    "Lowercase operator word treated as plain text",
    "Write logical operators in uppercase"⟩,
  ⟨.unknownKey, "Lexical", .low, true,
    "Unrecognized field key treated as plain text",
    "Use one of TI, AB, DP, URL"⟩,
  ⟨.missingValue, "Lexical", .low, true,
    "Field key is not followed by a terminated quoted value",
    "Quote the field value"⟩,
  ⟨.largeQuery, "Lexical", .medium, true,
    "Query exceeds the large query threshold",
    "Consider shortening the query"⟩,
  ⟨.invalidTags, "Markers", .high, false,
    "Marker delimiters must be non-empty",
    "Provide non-empty open and close tags"⟩,
  ⟨.danglingOpenTag, "Markers", .low, true,
    "Open tag without a closing tag; remainder left unmarked",
    "Check the snippet source for truncation"⟩,
  ⟨.strayCloseTag, "Markers", .low, true,
    "Close tag without a preceding open tag; kept as text",
    "Check the snippet source for truncation"⟩,
  ⟨.largeItemList, "Markers", .medium, true,
    "Item list exceeds the large item list threshold",
    "Page the snippet list"⟩,
  ⟨.markupEscaped, "Render", .low, true,
    "Input contained markup characters that were escaped",
    "No action required"⟩,
  ⟨.staleResult, "Session", .low, true,
    "Result for a superseded revision was discarded",
    "No action required"⟩,
  ⟨.unknownRevision, "Session", .medium, true,
    "Result carries a revision that was never issued",
    "Only complete revisions returned by begin()"⟩,
  ⟨.inputUnreadable, "Pipeline", .high, false,
    "Input could not be read",
    "Check the input path and permissions"⟩,
  ⟨.jsonUnreadable, "Pipeline", .high, false,
    "Input is not a JSON string array or snippet document",
    "Provide an array of strings or an object with HIGHLIGHTS/AB"⟩,
  ⟨.jsonUnwritable, "Pipeline", .high, false,
    "Output could not be serialized",
    "File a bug report with the failing input"⟩,
  ⟨.initialized, "System", .low, true,
    "Logging system initialized",
    "No action required"⟩,
  ⟨.queryScanned, "Lexical", .low, true,
    "Query tokenized",
    "No action required"⟩,
  ⟨.snippetsSplit, "Markers", .low, true,
    "Marker segments extracted",
    "No action required"⟩,
  ⟨.rendered, "Render", .low, true,
    "Markup rendered",
    "No action required"⟩,
  ⟨.resultApplied, "Session", .low, true,
    "Latest revision applied",
    "No action required"⟩,
  ⟨.runCompleted, "Pipeline", .low, true,
    "Pipeline run completed",
    "No action required"⟩]

/-- The entry of a known code. -/
def find? (c : Code) : Option CatalogEntry := entries.find? fun e => e.code == c

/-- What holds for a code that is not in the catalog. -/
def unknown (c : Code) : CatalogEntry where
  code := c
  category := "Unknown"
  severity := .medium
  recoverable := true
  description := "Unknown code"
  action := "No specific action available"

/-- What holds for a code. -/
def lookup (c : Code) : CatalogEntry := (find? c).getD (unknown c)

end Catalog
end SearchMarkup
