/-
# Limits and defaults

The numbers and tags that are fixed when the library is built. Each profile has its own
values for them. Those that stand here are the development profile's, which is the default:
a build has others only if it is told to take another profile.
-/

import SearchMarkup.Text.Basic

namespace SearchMarkup
namespace Limits

/-- A query of more bytes is still scanned, with a warning. -/
def largeQuery : Nat := 16384

/-- A list of more snippets is still split, with a warning. -/
def largeItemList : Nat := 1000

/-- How many superseded revisions a session remembers. -/
def supersededHistory : Nat := 16

/-- How many bytes a text has at most: a size is a 64-bit word with a sign. -/
def textSize : Nat := Nat.pow 2 63 - 1

/-- How many events a memory buffer holds. -/
def eventBuffer : Nat := 1000

/-- How many bytes of a message an event holds. -/
def eventMessage : Nat := 4096

/-- The tag before a marked stretch of a snippet. -/
def openTag : Text := ['<', 'k', 'w', '>']

/-- The tag after a marked stretch of a snippet. -/
def closeTag : Text := ['<', '/', 'k', 'w', '>']

/-- Where the limits were taken from. -/
def origin : String := "Generated from config/development.toml"

/-- The version of the command-line tool. -/
def version : String := "0.1.0"

end Limits
end SearchMarkup
