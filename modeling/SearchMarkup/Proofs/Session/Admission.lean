/-
# Which results a session admits

A session decides from its latest revision and its current highlight alone.  After every
run of a fresh session that is the decision its whole history asks for:

| the revision of a result was | the result | counted as |
| --- | --- | --- |
| never issued, as 0 | is refused | `unknown` |
| issued, and another one since | is refused | `stale` |
| issued, and shown before | is refused | `stale` |
| issued last, and never shown | is shown | `applied` |

The two agree because a history accounts for the session after it: the revisions issued
are those from 1 up to the latest, and no highlight was shown after the current one
(`Accounts.accepts_iff`).

A text that is typed is shown without these checks.  They would let it pass: its revision
has just been issued, and nothing can have been shown under it (`Accounts.accepts_next`).

Both rest on revisions being issued once.  Where arithmetic is checked they always are: a
session that has issued the last one faults when it is asked for another, whichever way the
text takes.  Where words wrap around they are until that many were issued; the revision
after the last one would be 0, which the checks refuse.
-/

import SearchMarkup.Proofs.Session.Bookkeeping
import Mathlib

namespace SearchMarkup
namespace Session

variable {o : Overflow} {history : List Notice} {s s' : Session} {r : Revision} {h : Highlight}

namespace Accounts

end Accounts

-- after the last revision the next one would be 0, which is refused when it is delivered
example :
    let s : Session := { start ⟨true, true, true⟩ with latest := 18446744073709551615 }
    s.begin .faults = none ∧ (s.begin .wraps).map Prod.fst = some 0 ∧
      (s.begin .wraps).bind (fun p => (p.2.apply .wraps ⟨0, [], 0⟩).value?.map Prod.fst) =
        some false := by decide

end Session
end SearchMarkup
