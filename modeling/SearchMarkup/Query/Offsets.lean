/-
# The scan by byte offsets

A rule can be asked at a byte of the whole text, as an editor asks it.  Then it adds up the
sizes of keys, marks and values to byte offsets, and cuts the text there:

| cut | gives |
| --- | --- |
| `Text.upTo t n` | what is before byte `n` |
| `Text.onwards t n` | what follows byte `n` |
| `Text.part t m n` | what is between bytes `m` and `n` |

A cut fails if the text has no such place, and a search in which one fails gives no answer
but a fault.  `Offsets.step` is one turn of the scan in this form, and `Offsets.Runs` says
what comes out of turn after turn, if anything does.
-/

import SearchMarkup.Query.Scan
import SearchMarkup.Word

namespace SearchMarkup

/-- Why a search by offsets gives no answer. -/
inductive OffsetFault where
  /-- A text has no part between two bytes. -/
  | cut (start stop : Nat)
  /-- A number of the position after some text does not fit its word. -/
  | word (before : Position)
  /-- A span would end before it starts. -/
  | span (start stop : Nat)
  deriving DecidableEq, Repr

namespace OffsetFault

variable {α β : Type}

/-- A step that succeeds hands its value on. -/
@[simp] theorem ok_bind (a : α) (f : α → Except OffsetFault β) : (Except.ok a >>= f) = f a := rfl

/-- A value is a success. -/
@[simp] theorem pure_eq (a : α) : (pure a : Except OffsetFault α) = .ok a := rfl

end OffsetFault

namespace Text

/-- What is before a byte. -/
def upTo (t : Text) (n : Nat) : Except OffsetFault Text :=
  match t.splitAtByte? n with
  | some (a, _) => .ok a
  | none => .error (.cut 0 n)

/-- What follows a byte. -/
def onwards (t : Text) (n : Nat) : Except OffsetFault Text :=
  match t.splitAtByte? n with
  | some (_, b) => .ok b
  | none => .error (.cut n t.size)

/-- What is between two bytes. -/
def part (t : Text) (start stop : Nat) : Except OffsetFault Text :=
  match t.slice? start stop with
  | some s => .ok s
  | none => .error (.cut start stop)

/-- The part up to the end of a stretch. -/
@[simp] theorem upTo_size (a b : Text) : upTo (a ++ b) a.size = .ok a := by
  simp only [upTo, splitAtByte?_size]

/-- The part from the end of a stretch on. -/
@[simp] theorem onwards_size (a b : Text) : onwards (a ++ b) a.size = .ok b := by
  simp only [onwards, splitAtByte?_size]

/-- The part from the end of two stretches on. -/
@[simp] theorem onwards_size_size (a s b : Text) :
    onwards (a ++ (s ++ b)) (a.size + s.size) = .ok b := by
  rw [← List.append_assoc, ← size_append, onwards_size]

/-- The part between the ends of two stretches. -/
theorem part_size (a s b : Text) : part (a ++ (s ++ b)) a.size (a.size + s.size) = .ok s := by
  rw [← List.append_assoc, ← size_append, part, slice?_append]

/-- The byte at which the first character begins that has a property. -/
def findByte? (p : Char → Bool) : Text → Option Nat
  | [] => none
  | c :: t => if p c then some 0 else (findByte? p t).map fun n => c.utf8Size + n

/-- The first character without a property begins where those that have it end. -/
theorem findByte?_not (p : Char → Bool) (t : Text) :
    (findByte? (fun c => !p c) t).getD t.size = size (t.takeWhile p) := by
  induction t with
  | nil => rfl
  | cons c t ih =>
    by_cases hc : p c = true
    · rw [findByte?, if_neg (by simp [hc]), List.takeWhile_cons_of_pos hc, size_cons, size_cons,
        ← ih]
      cases findByte? (fun c => !p c) t <;> rfl
    · rw [findByte?, if_pos (by simp [hc]), List.takeWhile_cons_of_neg hc]
      rfl

end Text

namespace Position

/-- The place after a further stretch of text. -/
def goOn (o : Overflow) (p : Position) (s : Text) : Except OffsetFault Position :=
  match o with
  | .wraps => .ok (p.advanceBy s)
  | .faults =>
    match p.advanceBy? s with
    | some q => .ok q
    | none => .error (.word p)

/-- The span from one place to another, which has to come after it. -/
def upTo (start stop : Position) : Except OffsetFault Span :=
  if start.offset ≤ stop.offset then .ok ⟨start, stop⟩
  else .error (.span start.offset stop.offset)

end Position

/-- A token found at a byte, with the number of bytes it takes. -/
structure Hit where
  token : Token
  size : Nat
  deriving DecidableEq, Repr

/-- What is told of a match when the text after it is not. -/
def Match.hit (m : Match) : Hit := ⟨m.token, m.token.text.size⟩

namespace Offsets

/-- No word character stands just before a byte. -/
def atWordStart (t : Text) (n : Nat) : Except OffsetFault Bool := do
  return !(← t.upTo n).getLast?.any isWordChar

/-- No word character follows a byte. -/
def atWordEnd (t : Text) (n : Nat) : Except OffsetFault Bool := do
  return !(← t.onwards n).head?.any isWordChar

/-- The run of word characters that follows a byte. -/
def wordAt (t : Text) (n : Nat) : Except OffsetFault Text := do
  let rest ← t.onwards n
  rest.upTo ((rest.findByte? fun c => !isWordChar c).getD rest.size)

/-- The first quote character that is not escaped in text that begins at a byte, and the
byte at which it stands. `escaped` says whether the first character is escaped. -/
def closingFrom? (escaped : Bool) (n : Nat) : Text → Option (Nat × Char)
  | [] => none
  | c :: t =>
    if escaped then closingFrom? false (n + c.utf8Size) t
    else if c = escapeMark then closingFrom? true (n + c.utf8Size) t
    else if isQuote c then some (n, c)
    else closingFrom? false (n + c.utf8Size) t

/-- The quotation that opens at a byte, with the number of bytes it takes. -/
def scanQuotation (t : Text) (n : Nat) (memo : QuoteMemo) :
    Except OffsetFault (Option (Quotation × Nat) × QuoteMemo) := do
  let rest ← t.onwards n
  match rest with
  | [] => return (none, memo)
  | opening :: inner =>
    if !isQuote opening || memo.knowsOpen n then return (none, memo)
    else
      match closingFrom? false opening.utf8Size inner with
      | none => return (none, memo.record n)
      | some (i, closing) =>
        let body ← rest.part opening.utf8Size i
        return (some (⟨opening, body, closing⟩, i + closing.utf8Size), memo)

/-- The first field of a table whose key stands at a byte and begins a word there. -/
def fieldKeyAmong? (fs : List Field) (t : Text) (n : Nat) : Except OffsetFault (Option Field) := do
  if ← atWordStart t n then
    let rest ← t.onwards n
    return fs.find? fun f => f.key.isPrefixOf rest
  else return none

/-- The field whose key stands at a byte and begins a word there. -/
def fieldKey? (t : Text) (n : Nat) : Except OffsetFault (Option Field) :=
  fieldKeyAmong? Field.all t n

/-- A field key, `=`, and a closed quotation. -/
def fieldPair (t : Text) (n : Nat) (memo : QuoteMemo) :
    Except OffsetFault (Option Hit × QuoteMemo) := do
  match ← fieldKey? t n with
  | none => return (none, memo)
  | some f =>
    let equals := n + f.key.size
    if (← t.onwards equals).head? == some '=' then
      let (found, memo) ← scanQuotation t (equals + 1) memo
      return (found.map fun (q, size) => ⟨.field f (some q), f.key.size + 1 + size⟩, memo)
    else return (none, memo)

/-- The first connective of a table that stands at a byte as a whole word. -/
def connectiveAmong (ks : List Connective) (t : Text) (n : Nat) :
    Except OffsetFault (Option Hit) := do
  if ← atWordStart t n then
    let rest ← t.onwards n
    let found ← ks.findM? fun k =>
      if k.word.isPrefixOf rest then atWordEnd t (n + k.word.size) else return false
    return found.map fun k => ⟨.connective k, k.word.size⟩
  else return none

/-- A connective as a whole word. -/
def connective (t : Text) (n : Nat) : Except OffsetFault (Option Hit) :=
  connectiveAmong Connective.all t n

/-- A closed quotation. -/
def quotation (t : Text) (n : Nat) (memo : QuoteMemo) :
    Except OffsetFault (Option Hit × QuoteMemo) := do
  let (found, memo) ← scanQuotation t n memo
  return (found.map fun (q, size) => ⟨.quotation q, size⟩, memo)

/-- The first field of a table whose key stands at a byte, if the key ends a word too. -/
def bareFieldAmong (fs : List Field) (t : Text) (n : Nat) : Except OffsetFault (Option Hit) := do
  match ← fieldKeyAmong? fs t n with
  | none => return none
  | some f =>
    if ← atWordEnd t (n + f.key.size) then return some ⟨.field f none, f.key.size⟩
    else return none

/-- A field key as a whole word. -/
def bareField (t : Text) (n : Nat) : Except OffsetFault (Option Hit) :=
  bareFieldAmong Field.all t n

/-- The first rule that matches. -/
def first (t : Text) (n : Nat) (memo : QuoteMemo) :
    Except OffsetFault (Option Hit × QuoteMemo) := do
  let (pair, memo) ← fieldPair t n memo
  if pair.isSome then return (pair, memo)
  else
    let word ← connective t n
    if word.isSome then return (word, memo)
    else
      let (quoted, memo) ← quotation t n memo
      if quoted.isSome then return (quoted, memo)
      else return (← bareField t n, memo)

/-- What the text at a byte where no rule matches was probably meant to be. -/
def nearMiss? (t : Text) (n : Nat) : Except OffsetFault (Option NearMiss) := do
  match (← t.onwards n).head? with
  | none => return none
  | some c =>
    if isQuote c then return some (.openQuote c)
    else if !isWordChar c then return none
    else if ← atWordStart t n then
      let w ← wordAt t n
      if Connective.isMiscased w then return some (.miscased w)
      else if looksLikeKey w && (Field.ofKey? w).isNone then
        if (← t.onwards (n + w.size)).head? == some '=' then return some (.unknownKey w)
        else return none
      else return none
    else return none

/-- A field key found at a byte that `=` follows although it got no value. -/
def missingValue? (t : Text) (n : Nat) (h : Hit) : Except OffsetFault (Option NearMiss) := do
  match h.token with
  | .field f none =>
    if (← t.onwards (n + h.size)).head? == some '=' then return some (.missingValue f)
    else return none
  | _ => return none

/-! ## The scan -/

/-- Where a scan stands and what it has so far. -/
structure State where
  offset : Nat := 0
  here : Position := .start
  /-- Where the plain text began that is still growing. -/
  plainStart : Option (Nat × Position) := none
  memo : QuoteMemo := {}
  tokens : List (Located Token) := []
  findings : List Finding := []
  deriving DecidableEq, Repr

/-- One more token, up to a place. -/
def State.push (s : State) (start : Position) (x : Token) (stop : Position) :
    Except OffsetFault State := do
  let span ← start.upTo stop
  return { s with tokens := s.tokens ++ [⟨x, span⟩] }

/-- One more finding at the place of the scan, if there is one. -/
def State.report (s : State) (miss : Option NearMiss) (stop : Except OffsetFault Position) :
    Except OffsetFault State := do
  match miss with
  | none => return s
  | some miss =>
    let span ← s.here.upTo (← stop)
    return { s with findings := s.findings ++ [⟨miss, span⟩] }

/-- The plain text that was growing becomes a token. -/
def State.flush (t : Text) (s : State) : Except OffsetFault State := do
  match s.plainStart with
  | none => return s
  | some (start, p) =>
    let u ← t.part start s.offset
    State.push { s with plainStart := none } p (.plain u) s.here

/-- What a hit covers becomes a token, and the scan goes on after it. -/
def State.take (o : Overflow) (t : Text) (s : State) (h : Hit) : Except OffsetFault State := do
  let stop ← s.here.goOn o (← t.part s.offset (s.offset + h.size))
  let s ← s.push s.here h.token stop
  return { s with offset := s.offset + h.size, here := stop }

/-- A character joins the plain text. -/
def State.extend (o : Overflow) (s : State) (c : Char) : Except OffsetFault State := do
  let here ← s.here.goOn o [c]
  return { s with
    offset := s.offset + c.utf8Size
    here := here
    plainStart := s.plainStart.or (some (s.offset, s.here)) }

/-- A turn of the scan; `none` at the end of the text. -/
def step (o : Overflow) (t : Text) (s : State) : Except OffsetFault (Option State) := do
  match (← t.onwards s.offset).head? with
  | none => return none
  | some c =>
    let (found, memo) ← first t s.offset s.memo
    let s := { s with memo := memo }
    match found with
    | some h =>
      let stop := do s.here.goOn o (← t.part s.offset (s.offset + h.size))
      let s ← s.report (← missingValue? t s.offset h) stop
      let s ← s.flush t
      return some (← s.take o t h)
    | none =>
      let miss ← nearMiss? t s.offset
      let s ← s.report miss (s.here.goOn o ((miss.map NearMiss.text).getD []))
      return some (← s.extend o c)

/-- What a scan has yielded when it is over. -/
def finish (t : Text) (s : State) : Except OffsetFault Scan := do
  let s ← s.flush t
  return ⟨s.tokens, s.findings⟩

/-- What comes out of a scan that goes on from a state: a fault, or what it has yielded. A
scan that took turn after turn without end would yield nothing. -/
inductive Runs (o : Overflow) (t : Text) : State → Except OffsetFault Scan → Prop where
  | fault {s e} (h : step o t s = .error e) : Runs o t s (.error e)
  | done {s} (h : step o t s = .ok none) : Runs o t s (finish t s)
  | turn {s s' r} (h : step o t s = .ok (some s')) (later : Runs o t s' r) : Runs o t s r

/-- The states that a scan of a text passes through. -/
inductive Passes (o : Overflow) (t : Text) : State → Prop where
  | start : Passes o t {}
  | turn {s s'} (hs : Passes o t s) (h : step o t s = .ok (some s')) : Passes o t s'

end Offsets
end SearchMarkup
