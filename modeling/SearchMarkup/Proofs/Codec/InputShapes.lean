/-
# The shapes of snippet input

A JSON text that has a value is read as snippet input by the shape of the value:

| value | input |
| --- | --- |
| an array of strings | items, the strings |
| an object | a document, by the names of its members |
| any other array of one or two values | a document, by their places |

In a document the highlights are an array of strings and the abstract is a string; either
may be `null` or missing. No member of these two names may occur twice, and members of
other names do not matter. Every other value is refused as a whole.

The last row comes of a record being read from the list of its fields as well. A list of
items of which one is `null` can pass for a document that way.
-/

import SearchMarkup.Codec.SnippetInput

namespace SearchMarkup
namespace Json

variable {α : Type} {read : Json → Option α} {write : α → Json}

/-! ## Readers that take back what was written -/

/-- A reader takes what a writer gives, as that which was written, and nothing else. -/
def Exact (read : Json → Option α) (write : α → Json) : Prop :=
  ∀ j a, read j = some a ↔ j = write a

/-- A string is read as its text. -/
theorem exact_text : Exact text? text := by
  intro j t
  cases j with
  | str s =>
    simp only [text?, string?, text, Option.map_some, Option.some.injEq, str.injEq]
    constructor
    · rintro rfl
      exact String.ofList_toList.symm
    · rintro rfl
      exact String.toList_ofList
  | _ => simp [text?, string?, text]

/-- Exactness carries over to lists, item by item. -/
theorem Exact.mapM (h : Exact read write) (items : List Json) (as : List α) :
    items.mapM read = some as ↔ items = as.map write := by
  induction items generalizing as with
  | nil => cases as <;> simp
  | cons j items ih =>
    have hcons : (j :: items).mapM read = some as ↔
        ∃ a, read j = some a ∧ ∃ as', items.mapM read = some as' ∧ a :: as' = as := by
      simp [List.mapM_cons, Option.bind_eq_some_iff]
    rw [hcons]
    constructor
    · rintro ⟨a, ha, as, has, rfl⟩
      rw [(h j a).1 ha, (ih as).1 has, List.map_cons]
    · intro heq
      cases as with
      | nil => cases heq
      | cons a as =>
        obtain ⟨hj, hitems⟩ := List.cons.inj heq
        exact ⟨a, (h j a).2 hj, as, (ih as).2 hitems, rfl⟩

/-- Exactness carries over to lists. -/
theorem Exact.list (h : Exact read write) : Exact (list? read) (list write) := by
  intro j as
  cases j with
  | arr items => simpa [list?, Json.list] using h.mapM items as
  | _ => simp [list?, Json.list]

/-! ## Values that may be missing -/

/-- Values, one at most, that stand for a value or for the lack of one. -/
def Stand (write : α → Json) (values : List Json) : Option α → Prop
  | none => values = [] ∨ values = [null]
  | some a => values = [write a]

/-- No more than one value stands for a value or for the lack of one. -/
theorem Stand.length_le_one {values : List Json} {r : Option α} (h : Stand write values r) :
    values.length ≤ 1 := by
  cases r with
  | none =>
    rcases h with rfl | rfl
    · exact Nat.zero_le 1
    · exact Nat.le_refl 1
  | some a =>
    cases h
    exact Nat.le_refl 1

/-- What a writer never writes as `null` can be told from what is missing. -/
theorem Exact.optional (h : Exact read write) (hnull : ∀ a, write a ≠ null) (v : Option Json)
    (r : Option α) : optional? read v = some r ↔ Stand write v.toList r := by
  cases v with
  | none => cases r <;> simp [optional?, Stand]
  | some j =>
    by_cases hj : j = null
    · subst hj
      cases r with
      | none => simp [optional?, Stand]
      | some a => simp [optional?, Stand, (hnull a).symm]
    · have hread : optional? read (some j) = (read j).map some := by
        cases j <;> first | rfl | exact absurd rfl hj
      rw [hread]
      cases r with
      | none => simp [Stand, hj]
      | some a => simpa [Stand] using h j a

/-- The values of all members of a name. -/
def valuesOf (ms : List (String × Json)) (name : String) : List Json :=
  (ms.filter fun m => m.1 == name).map Prod.snd

/-- A name has as many values as members. -/
theorem length_valuesOf (ms : List (String × Json)) (name : String) :
    (valuesOf ms name).length = ms.countP fun m => m.1 == name := by
  rw [valuesOf, List.length_map, List.countP_eq_length_filter]

/-- The value of a name is that of its first member. -/
theorem get?_obj (ms : List (String × Json)) (name : String) :
    (obj ms).get? name = (valuesOf ms name).head? := by
  rw [get?, members, valuesOf, List.head?_map, List.head?_filter]

/-- A name that does not occur twice has all its values in the first. -/
theorem toList_get?_obj {ms : List (String × Json)} {name : String}
    (h : (valuesOf ms name).length ≤ 1) : ((obj ms).get? name).toList = valuesOf ms name := by
  rw [get?_obj]
  match hvalues : valuesOf ms name with
  | [] => rfl
  | [_] => rfl
  | _ :: _ :: _ => simp [hvalues] at h

/-! ## Texts that have a value -/

/-- Two steps succeed if both do. -/
theorem bind_eq_ok {ε β γ : Type} {x : Except ε β} {f : β → Except ε γ} {c : γ} :
    x >>= f = .ok c ↔ ∃ b, x = .ok b ∧ f b = .ok c := by
  cases x <;> simp [bind, Except.bind]

/-- A reader succeeds whatever its faults are called. -/
theorem mapError_eq_ok {ε ε' β : Type} {x : Except ε β} {f : ε → ε'} {b : β} :
    x.mapError f = .ok b ↔ x = .ok b := by
  cases x with
  | error e => exact ⟨nofun, nofun⟩
  | ok b' =>
    constructor <;> intro h
    · cases h
      rfl
    · cases h
      rfl

/-- A text that has a value is that value and blanks. -/
theorem parse?_eq_ok_iff {t : Text} {j : Json} :
    parse? t = .ok j ↔ ∃ rest, readValue maxDepth t = .ok (j, rest) ∧ expectEnd rest = .ok () := by
  rw [parse?, mapError_eq_ok, bind_eq_ok]
  constructor
  · rintro ⟨⟨value, rest⟩, hread, h⟩
    obtain ⟨⟨⟩, hend, h⟩ := bind_eq_ok.1 h
    cases h
    exact ⟨rest, hread, hend⟩
  · rintro ⟨rest, hread, hend⟩
    exact ⟨(j, rest), hread, bind_eq_ok.2 ⟨(), hend, rfl⟩⟩

end Json

namespace SnippetDocument

open Json

/-! ## Documents -/

/-- An object that holds a document in members of its own. -/
def NamesFields (d : SnippetDocument) (j : Json) : Prop :=
  ∃ ms, j = .obj ms ∧ Stand (list text) (valuesOf ms "HIGHLIGHTS") d.highlights ∧
    Stand text (valuesOf ms "AB") d.abstractText

/-- An array that holds a document as its first value and its second. -/
def ListsFields (d : SnippetDocument) (j : Json) : Prop :=
  ∃ items, j = .arr items ∧ Stand (list text) (items.take 1) d.highlights ∧
    Stand text (items.drop 1) d.abstractText

/-- A document is put together from values that stand for its parts. -/
theorem ofParts?_eq_some_iff {highlights abstractText : Option Json} {d : SnippetDocument} :
    ofParts? highlights abstractText = some d ↔
      Stand (list text) highlights.toList d.highlights ∧
        Stand text abstractText.toList d.abstractText := by
  obtain ⟨hs, a⟩ := d
  have hparts : ofParts? highlights abstractText = some ⟨hs, a⟩ ↔
      optional? (list? text?) highlights = some hs ∧ optional? text? abstractText = some a := by
    simp [ofParts?, Option.bind_eq_some_iff]
  rw [hparts, exact_text.list.optional (fun ts => by simp [list]),
    exact_text.optional (fun t => by simp [text])]

/-- An object is a document if it names the fields of one. -/
theorem ofJson?_obj_eq_some_iff {ms : List (String × Json)} {d : SnippetDocument} :
    ofJson? (.obj ms) = some d ↔ NamesFields d (.obj ms) := by
  have hnames : NamesFields d (.obj ms) ↔
      Stand (list text) (valuesOf ms "HIGHLIGHTS") d.highlights ∧
        Stand text (valuesOf ms "AB") d.abstractText := by
    simp [NamesFields]
  rw [hnames, ofJson?, ← length_valuesOf, ← length_valuesOf]
  split
  · next hrepeated =>
    -- Two values never stand for one.
    refine iff_of_false (by simp) ?_
    rintro ⟨hs, ha⟩
    have := hs.length_le_one
    have := ha.length_le_one
    omega
  · next honce =>
    rw [ofParts?_eq_some_iff, toList_get?_obj (by omega), toList_get?_obj (by omega)]

/-- So is an array that lists them. -/
theorem ofJson?_arr_eq_some_iff {items : List Json} {d : SnippetDocument} :
    ofJson? (.arr items) = some d ↔ ListsFields d (.arr items) := by
  have hlists : ListsFields d (.arr items) ↔
      Stand (list text) (items.take 1) d.highlights ∧ Stand text (items.drop 1) d.abstractText := by
    simp [ListsFields]
  rw [hlists]
  match items with
  | [] => exact ofParts?_eq_some_iff
  | [_] => exact ofParts?_eq_some_iff
  | [_, _] => exact ofParts?_eq_some_iff
  | _ :: _ :: _ :: _ =>
    refine iff_of_false (by simp [ofJson?]) ?_
    rintro ⟨-, ha⟩
    have := ha.length_le_one
    simp at this

/-- A document is named or listed. -/
theorem ofJson?_eq_some_iff {j : Json} {d : SnippetDocument} :
    ofJson? j = some d ↔ NamesFields d j ∨ ListsFields d j := by
  cases j with
  | obj ms => simpa [ListsFields] using ofJson?_obj_eq_some_iff
  | arr items => simpa [NamesFields] using ofJson?_arr_eq_some_iff
  | _ => simp [ofJson?, NamesFields, ListsFields]

/-- Strings hold a document only if there are none of them. -/
theorem eq_nil_of_ofJson?_texts {ts : List Text} {d : SnippetDocument}
    (h : ofJson? (.list text ts) = some d) : ts = [] := by
  obtain ⟨hs, -⟩ : Stand (list text) ((ts.map text).take 1) d.highlights ∧ _ := by
    simpa [list, ListsFields] using ofJson?_arr_eq_some_iff.1 h
  cases ts with
  | nil => rfl
  | cons t ts => cases hd : d.highlights <;> simp [Stand, hd, text, list] at hs

end SnippetDocument

namespace SnippetInput

open Json

/-! ## Input -/

/-- A value has the shape of an input. An empty array is a list of no items. -/
def Shape : SnippetInput → Json → Prop
  | .items ts, j => j = .list text ts
  | .document d, j => j ≠ .arr [] ∧ (d.NamesFields j ∨ d.ListsFields j)

/-- What is read as input has one of its shapes. -/
theorem ofJson?_eq_some_iff {j : Json} {input : SnippetInput} :
    ofJson? j = some input ↔ Shape input j := by
  have htexts := exact_text.list j
  unfold ofJson?
  cases hj : j.list? text? with
  | some ts =>
    have hts := (htexts ts).1 hj
    cases input with
    | items ts' => simp [Shape, ← htexts, hj]
    | document d =>
      refine iff_of_false (by simp) ?_
      rintro ⟨hne, hd⟩
      have hnil := SnippetDocument.eq_nil_of_ofJson?_texts
        (hts ▸ SnippetDocument.ofJson?_eq_some_iff.2 hd)
      exact hne (by rw [hts, hnil]; rfl)
  | none =>
    cases input with
    | items ts' => simp [Shape, ← htexts, hj]
    | document d =>
      have hne : j ≠ .arr [] := by
        rintro rfl
        cases hj
      simp [Shape, hne, SnippetDocument.ofJson?_eq_some_iff]

/-- A text is input if its value is. -/
theorem parse?_eq_ok_iff {t : Text} {input : SnippetInput} :
    parse? t = .ok input ↔ ∃ j, Json.parse? t = .ok j ∧ ofJson? j = some input := by
  unfold parse?
  constructor
  · intro h
    split at h
    · cases h
    · next j rest hread =>
      split at h
      · cases h
      · next input' hinput =>
        split at h
        · cases h
        · next hend =>
          cases h
          exact ⟨j, Json.parse?_eq_ok_iff.2 ⟨rest, hread, hend⟩, hinput⟩
  · rintro ⟨j, hvalue, hinput⟩
    obtain ⟨rest, hread, hend⟩ := Json.parse?_eq_ok_iff.1 hvalue
    simp only [hread, hinput, hend]

/-- A value that is no input is what is wrong with its text. -/
theorem parse?_of_ofJson?_eq_none {t : Text} {j : Json} (h : Json.parse? t = .ok j)
    (hj : ofJson? j = none) : parse? t = .error (.whole (.noFormFits "SnippetInput")) := by
  obtain ⟨rest, hread, -⟩ := Json.parse?_eq_ok_iff.1 h
  simp only [parse?, hread, hj]

/-- **What is accepted.** A text is read as an input just when it has a value of the shape
of that input; and a text whose value has the shape of none is refused as a whole. -/
theorem accepts_exactly (t : Text) :
    (∀ input, parse? t = .ok input ↔ ∃ j, Json.parse? t = .ok j ∧ Shape input j) ∧
      ∀ j, Json.parse? t = .ok j → (∀ input, ¬ Shape input j) →
        parse? t = .error (.whole (.noFormFits "SnippetInput")) := by
  constructor
  · intro input
    rw [parse?_eq_ok_iff]
    exact exists_congr fun j => and_congr_right fun _ => ofJson?_eq_some_iff
  · intro j hvalue hnone
    refine parse?_of_ofJson?_eq_none hvalue (Option.eq_none_iff_forall_ne_some.2 ?_)
    intro input hinput
    exact hnone input (ofJson?_eq_some_iff.1 hinput)

/-- Of the values of `[1, 2]` neither is a string, and the first is no list of highlights. -/
theorem accepts_exactly_two_numbers :
    Json.parse? ['[', '1', ',', ' ', '2', ']'] = .ok (.arr [.nat 1, .nat 2]) ∧
      (∀ input, ¬ Shape input (.arr [.nat 1, .nat 2])) ∧
      parse? ['[', '1', ',', ' ', '2', ']'] = .error (.whole (.noFormFits "SnippetInput")) := by
  have hvalue : Json.parse? ['[', '1', ',', ' ', '2', ']'] = .ok (.arr [.nat 1, .nat 2]) := rfl
  have hnone : ∀ input, ¬ Shape input (.arr [.nat 1, .nat 2]) := by
    intro input hshape
    cases ofJson?_eq_some_iff.2 hshape
  exact ⟨hvalue, hnone, (accepts_exactly _).2 _ hvalue hnone⟩

/-- A list of items one of which is missing is no list of strings, and yet it is accepted:
what is missing can be the highlights of a document. -/
theorem null_among_items_accepted :
    Json.parse? ['[', 'n', 'u', 'l', 'l', ']'] = .ok (.arr [.null]) ∧
      (∀ ts, Json.arr [.null] ≠ .list text ts) ∧
      parse? ['[', 'n', 'u', 'l', 'l', ']'] = .ok (.document {}) := by
  refine ⟨rfl, ?_, rfl⟩
  intro ts hts
  cases (exact_text.list _ ts).2 hts

end SnippetInput
end SearchMarkup
