import ShaclTypes.Json.Document
set_option autoImplicit false

/-!
# Reading documents

What the readers of terms, paths and settings share.

* Nesting is limited: a reader is handed the `room` that is left for brackets
  inside it, and a bracket takes one from it.  A value that a reader passes
  over has no such limit.
* A record is an object whose fields stand in any order, each at most once;
  fields nobody asks for are passed over.
* A value that has to be kept aside until more is known (`isPlain`) must hold
  texts and numbers in range throughout, and nest within the room.
-/

namespace ShaclTypes.Json

/-- How deeply brackets may nest in what is read. -/
def nestingLimit : Nat := 127

namespace Document

/-- The text that the document is. -/
def text? : Document → Option String
  | string s => s
  | _ => none

/-- The truth value that the document is. -/
def bool? : Document → Option Bool
  | bool b => some b
  | _ => none

/-- A list of texts. -/
def texts? : Nat → Document → Option (List String)
  | _ + 1, array items => items.mapM text?
  | _, _ => none

/-- A text, or null for none. -/
def optionalText? : Document → Option (Option String)
  | null => some none
  | string s => s.map some
  | _ => none

/-- Whether every string is a text, every number is in the range of binary64,
and brackets nest no deeper than `room`. -/
def isPlain : Nat → Document → Bool
  | _, null | _, bool _ => true
  | _, number n => !n.exceedsDouble
  | _, string s => s.isSome
  | room + 1, array items => items.all (isPlain room)
  | room + 1, object fields => fields.all fun f => f.1.isSome && isPlain room f.2
  | 0, array _ | 0, object _ => false

/-- The fields with the given names, in the order of the object.  Every name in
the object must be a text, and none of the given names may occur twice. -/
def known? (names : List String) (fields : List (Option String × Document)) :
    Option (List (String × Document)) := do
  let named ← fields.mapM fun f => f.1.map fun name => (name, f.2)
  let known := named.filter fun f => names.contains f.1
  if (known.map Prod.fst).Nodup then some known else none

/-- The names of the fields that are kept are distinct and among those asked for. -/
theorem known?_names {names : List String} {fields : List (Option String × Document)}
    {known : List (String × Document)} (h : known? names fields = some known) :
    (known.map Prod.fst).Nodup ∧ ∀ f ∈ known, f.1 ∈ names := by
  simp only [known?, Option.bind_eq_bind, Option.bind_eq_some_iff] at h
  obtain ⟨named, _, h⟩ := h
  split at h
  · next nodup =>
    obtain rfl := Option.some.inj h
    refine ⟨nodup, ?_⟩
    intro f hf
    simpa using (List.mem_filter.1 hf).2
  · cases h

end Document

end ShaclTypes.Json
