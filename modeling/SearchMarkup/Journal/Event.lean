/-
# Events

An event has a level, a code, a message, and optionally the span of text it is about
and named values around it. The values are kept in the order of their names, one per
name.

A message longer than `Limits.eventMessage` bytes is cut after the last whole
character that fits, and three dots say so.
-/

import SearchMarkup.Journal.Catalog
import SearchMarkup.Journal.Level
import SearchMarkup.Limits
import SearchMarkup.Position

namespace SearchMarkup

namespace Text

/-- The longest leading part of at most a number of bytes that cuts no character. -/
def takeBytes : Nat → Text → Text
  | _, [] => []
  | n, c :: t => if c.utf8Size ≤ n then c :: takeBytes (n - c.utf8Size) t else []

/-- No more bytes are taken than asked for. -/
theorem size_takeBytes_le (n : Nat) (t : Text) : (takeBytes n t).size ≤ n := by
  induction t generalizing n with
  | nil => simp [takeBytes]
  | cons c t ih =>
    rw [takeBytes]
    split
    · next hc =>
      have := ih (n - c.utf8Size)
      rw [size_cons]
      omega
    · exact Nat.zero_le n

/-- What was taken is followed by what was left. -/
theorem exists_eq_takeBytes_append (n : Nat) (t : Text) : ∃ rest, t = takeBytes n t ++ rest := by
  induction t generalizing n with
  | nil => exact ⟨[], rfl⟩
  | cons c t ih =>
    rw [takeBytes]
    split
    · obtain ⟨rest, hrest⟩ := ih (n - c.utf8Size)
      exact ⟨rest, by rw [List.cons_append, ← hrest]⟩
    · exact ⟨c :: t, rfl⟩

/-- A text cut to a number of bytes, with three dots when something was cut off. -/
def truncate (bytes : Nat) (t : Text) : Text :=
  if t.size ≤ bytes then t else t.takeBytes bytes ++ ['.', '.', '.']

end Text

/-- Something that happened while the library worked. -/
structure Event where
  level : Level
  code : Code
  message : String
  span : Option Span := none
  context : List (String × String) := []
  deriving DecidableEq, Repr

namespace Event

/-- An event with a message cut to the allowed length. -/
def make (level : Level) (code : Code) (message : String) : Event where
  level := level
  code := code
  message := String.ofList (Text.truncate Limits.eventMessage message.toList)

/-- An event that says that something failed. -/
def error (code : Code) (message : String) : Event := make .error code message

/-- An event that says that something may be wrong. -/
def warning (code : Code) (message : String) : Event := make .warning code message

/-- A remark, which has no code of its own. -/
def info (message : String) : Event := make .info .remark message

/-- A report of something done. -/
def success (code : Code) (message : String) : Event := make .info code message

/-- A detail. -/
def debug (code : Code) (message : String) : Event := make .debug code message

/-- The event with a span. -/
def withSpan (e : Event) (s : Span) : Event := { e with span := some s }

/-- Sets the value of a name in a list ordered by name. -/
def insertValue (name value : String) : List (String × String) → List (String × String)
  | [] => [(name, value)]
  | (n, v) :: rest =>
    if name < n then (name, value) :: (n, v) :: rest
    else if name = n then (name, value) :: rest
    else (n, v) :: insertValue name value rest

/-- The event with one more named value; an earlier value of that name is replaced. -/
def withValue (e : Event) (name value : String) : Event :=
  { e with context := insertValue name value e.context }

/-- The event with one more named number. -/
def withCount (e : Event) (name : String) (n : Nat) : Event := e.withValue name (toString n)

/-- The event with one more named stretch of text. -/
def withText (e : Event) (name : String) (t : Text) : Event := e.withValue name (String.ofList t)

section

variable (e : Event) (c : Code) (message name value : String)

@[simp] theorem code_warning : (warning c message).code = c := rfl

@[simp] theorem code_success : (success c message).code = c := rfl

@[simp] theorem code_debug : (debug c message).code = c := rfl

@[simp] theorem code_withSpan (s : Span) : (e.withSpan s).code = e.code := rfl

@[simp] theorem code_withValue : (e.withValue name value).code = e.code := rfl

@[simp] theorem code_withCount (n : Nat) : (e.withCount name n).code = e.code := rfl

@[simp] theorem code_withText (t : Text) : (e.withText name t).code = e.code := rfl

end

/-- What the catalog says about the event's code. -/
def entry (e : Event) : CatalogEntry := Catalog.lookup e.code

/-- The event as a line for people: level, code, message, where, and the values. -/
def line (e : Event) : String :=
  let place :=
    match e.span with
    | none => ""
    | some s => " at " ++ s.start.display
  let values :=
    if e.context.isEmpty then ""
    else " (" ++ ", ".intercalate (e.context.map fun (n, v) => n ++ "=" ++ v) ++ ")"
  "[" ++ e.level.name ++ "] " ++ e.code ++ " - " ++ e.message ++ place ++ values

end Event

/-- A result together with the events on the way to it, in order. -/
structure Logged (α : Type) where
  value : α
  events : List Event

namespace Logged

instance : Monad Logged where
  pure a := ⟨a, []⟩
  bind x f := ⟨(f x.value).value, x.events ++ (f x.value).events⟩

/-- Records events. -/
def tell (events : List Event) : Logged Unit := ⟨(), events⟩

@[simp] theorem value_pure {α : Type} (a : α) : (pure a : Logged α).value = a := rfl

@[simp] theorem events_pure {α : Type} (a : α) : (pure a : Logged α).events = [] := rfl

@[simp] theorem value_bind {α β : Type} (x : Logged α) (f : α → Logged β) :
    (x >>= f).value = (f x.value).value := rfl

@[simp] theorem events_bind {α β : Type} (x : Logged α) (f : α → Logged β) :
    (x >>= f).events = x.events ++ (f x.value).events := rfl

end Logged

/-- A result that a fault may stand in the way of, together with the events before either,
in order. -/
structure Faulting (α : Type) where
  value? : Option α
  events : List Event

namespace Faulting

/-- Nothing comes after a fault. -/
instance : Monad Faulting where
  pure a := ⟨some a, []⟩
  bind x f :=
    match x.value? with
    | none => ⟨none, x.events⟩
    | some a => ⟨(f a).value?, x.events ++ (f a).events⟩

/-- What is only logged does not fault. -/
instance : MonadLift Logged Faulting where
  monadLift x := ⟨some x.value, x.events⟩

/-- A value that is missing is a fault. -/
instance : MonadLift Option Faulting where
  monadLift x := ⟨x, []⟩

variable {α β : Type}

@[simp] theorem value?_pure (a : α) : (pure a : Faulting α).value? = some a := rfl

@[simp] theorem events_pure (a : α) : (pure a : Faulting α).events = [] := rfl

@[simp] theorem value?_lift (x : Logged α) : (liftM x : Faulting α).value? = some x.value := rfl

@[simp] theorem value?_lift_option (x : Option α) : (liftM x : Faulting α).value? = x := rfl

@[simp] theorem events_lift_option (x : Option α) : (liftM x : Faulting α).events = [] := rfl

/-- A fault in the first part is one of the whole. -/
@[simp] theorem value?_bind (x : Faulting α) (f : α → Faulting β) :
    (x >>= f).value? = x.value?.bind fun a => (f a).value? := by
  rcases x with ⟨_ | a, events⟩ <;> rfl

/-- After a fault nothing more is reported. -/
@[simp] theorem events_bind (x : Faulting α) (f : α → Faulting β) :
    (x >>= f).events = x.events ++ x.value?.elim [] fun a => (f a).events := by
  rcases x with ⟨_ | a, events⟩
  · exact (List.append_nil _).symm
  · rfl

/-- What is reported about a value does not change it. -/
theorem value?_tell_return (x : Option α) (events : List Event) (f : α → β) :
    (do let a ← x; Logged.tell events; return f a : Faulting β).value? = x.map f := by
  cases x <;> rfl

end Faulting
end SearchMarkup
