import Mathlib.Data.List.Basic
import ShaclTypes.Model.ValueType
set_option autoImplicit false

/-!
# The object types that a type mentions

A type mentions an object type if a reference to it stands somewhere in the type.  Where a
part of a type stands is told by what is around it, a type with a place left open
(`Surroundings`).  The collected references are exactly the object types mentioned, each once,
in the order in which they are first mentioned from left to right; and sets and options, put
around any part, make no difference (`references_exact`).
-/

namespace ShaclTypes

/-- What is collected before an element had been collected when it first occurred. -/
theorem addAll_nil_eq_append_cons {α : Type} [DecidableEq α] {l before after : List α} {a : α}
    (h : addAll [] l = before ++ a :: after) :
    ∃ seen rest, l = seen ++ a :: rest ∧ addAll [] seen = before := by
  have hmem : a ∈ l := by
    have hcollected : a ∈ addAll [] l := by simp [h]
    simpa [mem_addAll] using hcollected
  obtain ⟨seen, rest, rfl, hfirst⟩ := List.eq_append_cons_of_mem hmem
  refine ⟨seen, rest, rfl, ?_⟩
  have hfresh : a ∉ addAll [] seen := by simpa [mem_addAll] using hfirst
  obtain ⟨more, hmore⟩ := prefix_addAll (addAll [] seen ++ [a]) rest
  have hnodup := nodup_addAll List.nodup_nil (seen ++ a :: rest)
  rw [addAll_append, addAll_cons, addNew, if_neg hfresh, ← hmore, List.append_assoc,
    List.singleton_append] at h hnodup
  have hlate : a ∉ more := (List.nodup_cons.1 (List.nodup_append.1 hnodup).2.1).1
  exact ((List.append_cons_inj_of_notMem hfresh hlate).1 h).1

/-- An element of two lists put together is in the first of them or in the second. -/
theorem append_eq_append_cons {α : Type} {as bs before after : List α} {a : α}
    (h : as ++ bs = before ++ a :: after) :
    (∃ more, as = before ++ a :: more) ∨ ∃ later, before = as ++ later ∧ bs = later ++ a :: after := by
  rcases List.append_eq_append_iff.1 h with hlater | ⟨more, hfirst, hrest⟩
  · exact .inr hlater
  · cases more with
    | nil => exact .inr ⟨[], by rw [hfirst, List.append_nil, List.append_nil], hrest.symm⟩
    | cons b more =>
      obtain rfl := (List.cons.inj hrest).1
      exact .inl ⟨more, hfirst⟩

namespace ValueType

/-! ## Parts of types -/

/-- What is around a part of a type. -/
inductive Surroundings where
  /-- nothing: the part is the whole -/
  | here
  | set (inner : Surroundings) (minCount : Nat)
  | option (inner : Surroundings)
  /-- other members on either side -/
  | composite (kind : CompositeKind) (before : List ValueType) (inner : Surroundings)
      (after : List ValueType)

namespace Surroundings

/-- The type with a part in its place. -/
def fill : Surroundings → ValueType → ValueType
  | here, part => part
  | set inner minCount, part => .set (inner.fill part) minCount
  | option inner, part => .option (inner.fill part)
  | composite kind before inner after, part =>
    .composite kind (before ++ inner.fill part :: after)

/-- The types that stand to the left of the place. -/
def left : Surroundings → List ValueType
  | here => []
  | set inner _ | option inner => inner.left
  | composite _ before inner _ => before ++ inner.left

/-- The types that stand to the right of the place. -/
def right : Surroundings → List ValueType
  | here => []
  | set inner _ | option inner => inner.right
  | composite _ _ inner after => inner.right ++ after

end Surroundings

/-- A reference to the object type stands somewhere in the type. -/
def Mentions (t : ValueType) (id : ObjectId) : Prop :=
  ∃ (around : Surroundings) (inline : Bool), t = around.fill (.object id inline)

/-! ## Occurrences -/

theorem occurrencesList_append (ts us : List ValueType) :
    occurrencesList (ts ++ us) = occurrencesList ts ++ occurrencesList us := by
  induction ts with
  | nil => rfl
  | cons t ts ih => rw [List.cons_append, occurrencesList, occurrencesList, ih, List.append_assoc]

theorem occurrences_fill (around : Surroundings) (part : ValueType) :
    (around.fill part).occurrences =
      occurrencesList around.left ++ part.occurrences ++ occurrencesList around.right := by
  induction around with
  | here => simp [Surroundings.fill, Surroundings.left, Surroundings.right, occurrencesList]
  | set inner minCount ih | option inner ih =>
    simpa only [Surroundings.fill, Surroundings.left, Surroundings.right, occurrences] using ih
  | composite kind before inner after ih =>
    simp only [Surroundings.fill, Surroundings.left, Surroundings.right, occurrences,
      occurrencesList_append, occurrencesList, ih, List.append_assoc]

mutual

/-- Every occurrence has its place, and what occurs before it stands to the left. -/
theorem exists_fill_of_occurrences {seen rest : List ObjectId} {id : ObjectId} :
    (t : ValueType) → t.occurrences = seen ++ id :: rest →
      ∃ around inline, t = Surroundings.fill around (.object id inline) ∧
        seen = occurrencesList around.left
  | .object id' inline, h => by
    rcases List.append_eq_singleton_iff.1 h.symm with ⟨rfl, hid⟩ | ⟨-, hnil⟩
    · obtain rfl := (List.cons.inj hid).1
      exact ⟨.here, inline, rfl, rfl⟩
    · cases hnil
  | .composite kind members, h => by
    obtain ⟨before, around, inline, after, rfl, hseen⟩ := exists_fill_of_occurrencesList members h
    exact ⟨.composite kind before around after, inline, rfl, hseen⟩
  | .set item minCount, h => by
    obtain ⟨around, inline, rfl, hseen⟩ := exists_fill_of_occurrences item h
    exact ⟨.set around minCount, inline, rfl, hseen⟩
  | .option item, h => by
    obtain ⟨around, inline, rfl, hseen⟩ := exists_fill_of_occurrences item h
    exact ⟨.option around, inline, rfl, hseen⟩
  | .literal _, h | .identifier _, h | .objectComposite _ _, h => by
    simp [occurrences] at h

theorem exists_fill_of_occurrencesList {seen rest : List ObjectId} {id : ObjectId} :
    (ts : List ValueType) → occurrencesList ts = seen ++ id :: rest →
      ∃ before around inline after,
        ts = before ++ Surroundings.fill around (.object id inline) :: after ∧
          seen = occurrencesList (before ++ around.left)
  | [], h => by simp [occurrencesList] at h
  | t :: ts, h => by
    rcases append_eq_append_cons h with ⟨more, hfirst⟩ | ⟨later, rfl, hlater⟩
    · obtain ⟨around, inline, rfl, rfl⟩ := exists_fill_of_occurrences t hfirst
      exact ⟨[], around, inline, ts, rfl, rfl⟩
    · obtain ⟨before, around, inline, after, rfl, rfl⟩ := exists_fill_of_occurrencesList ts hlater
      exact ⟨t :: before, around, inline, after, rfl, by rw [List.cons_append, occurrencesList]⟩

end

theorem mem_occurrences {t : ValueType} {id : ObjectId} : id ∈ t.occurrences ↔ t.Mentions id := by
  constructor
  · intro h
    obtain ⟨seen, rest, hsplit⟩ := List.append_of_mem h
    obtain ⟨around, inline, ht, -⟩ := exists_fill_of_occurrences t hsplit
    exact ⟨around, inline, ht⟩
  · rintro ⟨around, inline, rfl⟩
    simp [occurrences_fill, occurrences]

theorem mem_occurrencesList {ts : List ValueType} {id : ObjectId} :
    id ∈ occurrencesList ts ↔ ∃ t ∈ ts, t.Mentions id := by
  induction ts with
  | nil => simp [occurrencesList]
  | cons t ts ih => simp [occurrencesList, mem_occurrences, ih]

/-! ## What is collected -/

theorem references_eq (t : ValueType) : t.references = addAll [] t.occurrences :=
  collect_eq_addAll [] t

/-- Types around parts with the same occurrences have the same references. -/
theorem references_fill_congr {part part' : ValueType} (h : part.occurrences = part'.occurrences)
    (around : Surroundings) : (around.fill part).references = (around.fill part').references := by
  rw [references_eq, references_eq, occurrences_fill, occurrences_fill, h]

/-- The references of a type are the object types that it mentions, each once.  Those before
one of them are the ones mentioned to the left of a place where this one is, which is thus
mentioned there for the first time.  A set or an option around a part changes nothing. -/
theorem references_exact (t : ValueType) :
    t.references.Nodup ∧
    (∀ id, id ∈ t.references ↔ t.Mentions id) ∧
    (∀ before id after, t.references = before ++ id :: after →
      ∃ (around : Surroundings) (inline : Bool), t = around.fill (.object id inline) ∧
        ∀ id', id' ∈ before ↔ ∃ part ∈ around.left, part.Mentions id') ∧
    ∀ (around : Surroundings) (part : ValueType), t = around.fill part →
      (∀ minCount, (around.fill (.set part minCount)).references = t.references) ∧
      (around.fill (.option part)).references = t.references := by
  refine ⟨?_, fun id => ?_, fun before id after h => ?_, ?_⟩
  · rw [references_eq]
    exact nodup_addAll List.nodup_nil _
  · rw [references_eq, mem_addAll, mem_occurrences]
    simp
  · rw [references_eq] at h
    obtain ⟨seen, rest, hsplit, rfl⟩ := addAll_nil_eq_append_cons h
    obtain ⟨around, inline, rfl, rfl⟩ := exists_fill_of_occurrences t hsplit
    refine ⟨around, inline, rfl, fun id' => ?_⟩
    rw [mem_addAll, mem_occurrencesList]
    simp
  · rintro around part rfl
    exact ⟨fun _ => references_fill_congr (by rw [occurrences]) around,
      references_fill_congr (by rw [occurrences]) around⟩

/-- On either side of the place there are references to one object type. -/
def eitherSide : Surroundings :=
  .set (.composite .union
    [.composite .intersection [.option (.object ⟨2⟩ false), .objectComposite .union ⟨7⟩]]
    .here [.literal {}, .set (.object ⟨2⟩ true) 3]) 0

theorem references_exact_eitherSide :
    (eitherSide.fill (.object ⟨1⟩ true)).references = [⟨2⟩] ++ ⟨1⟩ :: [] ∧
    (∃ (around : Surroundings) (inline : Bool),
      eitherSide.fill (.object ⟨1⟩ true) = around.fill (.object ⟨1⟩ inline) ∧
        ∀ id', id' ∈ [⟨2⟩] ↔ ∃ part ∈ around.left, part.Mentions id') ∧
    (eitherSide.fill (.option (.object ⟨1⟩ true))).references = [⟨2⟩, ⟨1⟩] := by
  have hreferences : (eitherSide.fill (.object ⟨1⟩ true)).references = [⟨2⟩] ++ ⟨1⟩ :: [] := rfl
  obtain ⟨-, -, horder, hwrapped⟩ := references_exact (eitherSide.fill (.object ⟨1⟩ true))
  exact ⟨hreferences, horder _ _ _ hreferences,
    (hwrapped eitherSide _ rfl).2.trans hreferences⟩

end ValueType

end ShaclTypes
