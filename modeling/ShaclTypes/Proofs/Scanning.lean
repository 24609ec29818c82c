import Mathlib.Data.List.Basic
import Mathlib.Data.List.Induction
import ShaclTypes.Rdf.TripleStore
set_option autoImplicit false

/-!
# Queries and scans

A store answers queries through its indexes, and even the test whether a statement
is there already goes through one of the indexes that it protects.  Each index of a
store that is built by additions holds, for every term, the positions of the
statements with that term, in ascending order and nothing else (`Indexed`).  So
every query answers as a scan of the statements would (`queries_scan_additions`).
-/

namespace ShaclTypes

/-- Collecting elements keeps the first of each. -/
theorem addAll_nil_eq_eraseDups {α : Type} [DecidableEq α] (l : List α) :
    addAll [] l = l.eraseDups := by
  induction l using List.reverseRecOn with
  | nil => rfl
  | append_singleton l a ih =>
    rw [addAll_append, ih, List.eraseDups_append, addAll_cons, addAll_nil, addNew]
    by_cases ha : a ∈ l
    · simp [ha, List.removeAll]
    · simp [ha, List.removeAll, List.eraseDups_cons]

namespace Rdf

/-! ## Positions -/

/-- The positions of the statements in which a part is the given term. -/
def positionsOf (part : Triple → Term) (triples : Array Triple) (t : Term) : List Nat :=
  (List.range triples.size).filter fun i => triples[i]?.any fun u => part u == t

theorem lt_size_of_mem_positionsOf {part : Triple → Term} {triples : Array Triple} {t : Term}
    {i : Nat} (h : i ∈ positionsOf part triples t) : i < triples.size :=
  List.mem_range.1 (List.mem_filter.1 h).1

/-- One more statement has the last position. -/
theorem positionsOf_push (part : Triple → Term) (triples : Array Triple) (u : Triple) (t : Term) :
    positionsOf part (triples.push u) t =
      positionsOf part triples t ++ if part u = t then [triples.size] else [] := by
  have hold : ∀ i ∈ List.range triples.size,
      ((triples.push u)[i]?.any fun u => part u == t) = triples[i]?.any fun u => part u == t := by
    intro i hi
    rw [Array.getElem?_push, if_neg (Nat.ne_of_lt (List.mem_range.1 hi))]
  unfold positionsOf
  rw [Array.size_push, List.range_succ, List.filter_append, List.filter_congr hold]
  by_cases h : part u = t
  · simp [h]
  · simp [h]

/-- The statements at these positions are those that a scan finds. -/
theorem filterMap_positionsOf (part : Triple → Term) (l : List Triple) (t : Term) :
    (positionsOf part l.toArray t).filterMap (fun i => l.toArray[i]?) =
      l.filter fun u => part u == t := by
  induction l using List.reverseRecOn with
  | nil => rfl
  | append_singleton l u ih =>
    have hold : ∀ i ∈ positionsOf part l.toArray t, (l.toArray.push u)[i]? = l.toArray[i]? := by
      intro i hi
      rw [Array.getElem?_push, if_neg (Nat.ne_of_lt (lt_size_of_mem_positionsOf hi))]
    rw [← List.push_toArray, positionsOf_push, List.filterMap_append,
      List.filterMap_congr hold, ih, List.filter_append]
    by_cases h : part u = t
    · simp [h]
    · simp [h]

namespace StoreIndex

/-- The index holds the positions of the statements by one of their parts. -/
def Holds (index : StoreIndex) (part : Triple → Term) (triples : Array Triple) : Prop :=
  ∀ t, (index.positions t).toList = positionsOf part triples t

theorem holds_empty (part : Triple → Term) : Holds ∅ part #[] := by
  intro t
  simp [positions, positionsOf]

/-- Recording the position of one more statement. -/
theorem Holds.add {index : StoreIndex} {part : Triple → Term} {triples : Array Triple}
    (h : index.Holds part triples) (u : Triple) :
    (index.add (part u) triples.size).Holds part (triples.push u) := by
  intro t
  rw [positions_add, positionsOf_push, ← h t]
  by_cases ht : t = part u
  · subst ht
    simp
  · simp [ht, Ne.symm ht]

end StoreIndex

namespace TripleStore

variable {s : TripleStore}

/-! ## Indexed stores -/

/-- Both indexes hold the positions of the statements. -/
structure Indexed (s : TripleStore) : Prop where
  bySubject : s.bySubject.Holds Triple.subject s.triples
  byObject : s.byObject.Holds Triple.object s.triples

theorem lookup_eq_filter {index : StoreIndex} {part : Triple → Term}
    (h : index.Holds part s.triples) (t : Term) :
    s.lookup index t = s.toList.filter fun u => part u == t := by
  rw [lookup, h t]
  exact filterMap_positionsOf part s.toList t

namespace Indexed

theorem about (h : s.Indexed) (subject : Term) :
    s.about subject = s.toList.filter fun u => u.subject == subject :=
  lookup_eq_filter h.bySubject subject

theorem pointingTo (h : s.Indexed) (object : Term) :
    s.pointingTo object = s.toList.filter fun u => u.object == object :=
  lookup_eq_filter h.byObject object

theorem contains (h : s.Indexed) (t : Triple) : s.contains t = s.toList.contains t := by
  rw [Bool.eq_iff_iff, List.contains_iff_mem, TripleStore.contains, h.about,
    List.contains_iff_mem, List.mem_filter]
  simp

/-- An addition keeps the indexes, and adds the statement if it is new. -/
theorem add (h : s.Indexed) (t : Triple) :
    (s.add t).Indexed ∧ (s.add t).toList = addNew s.toList t := by
  unfold TripleStore.add addNew
  rw [h.contains]
  by_cases ht : t ∈ s.toList
  · rw [if_pos (List.contains_iff_mem.2 ht), if_pos ht]
    exact ⟨h, rfl⟩
  · rw [if_neg (by simpa using ht), if_neg ht]
    exact ⟨⟨h.bySubject.add t, h.byObject.add t⟩, Array.toList_push⟩

end Indexed

theorem indexed_empty : empty.Indexed :=
  ⟨StoreIndex.holds_empty _, StoreIndex.holds_empty _⟩

/-- A store that is built by additions is indexed, and has each statement once. -/
theorem ofList_spec (additions : List Triple) :
    (ofList additions).Indexed ∧ (ofList additions).toList = additions.eraseDups := by
  rw [← addAll_nil_eq_eraseDups]
  induction additions using List.reverseRecOn with
  | nil => exact ⟨indexed_empty, rfl⟩
  | append_singleton additions t ih =>
    obtain ⟨hindexed, hlist⟩ := ih
    have hlast : ofList (additions ++ [t]) = (ofList additions).add t := by simp [ofList]
    rw [hlast, addAll_append, ← hlist]
    exact hindexed.add t

theorem indexed_ofList (additions : List Triple) : (ofList additions).Indexed :=
  (ofList_spec additions).1

theorem toList_ofList (additions : List Triple) :
    (ofList additions).toList = additions.eraseDups := (ofList_spec additions).2

theorem mem_toList_ofList {additions : List Triple} {t : Triple} :
    t ∈ (ofList additions).toList ↔ t ∈ additions := by
  rw [toList_ofList, List.mem_eraseDups]

/-! ## Queries -/

namespace Indexed

variable (h : s.Indexed)
include h

theorem objects (subject : Term) (predicate : Iri) :
    s.objects subject predicate =
      (s.toList.filter fun u => u.subject == subject && u.predicate == predicate).map
        Triple.object := by
  rw [TripleStore.objects, h.about, List.filter_filter]
  simp only [Bool.and_comm]

theorem object? (subject : Term) (predicate : Iri) :
    s.object? subject predicate =
      (s.toList.find? fun u => u.subject == subject && u.predicate == predicate).map
        Triple.object := by
  rw [object?_eq_head?, h.objects, List.head?_map, List.head?_filter]

theorem subjects (predicate : Iri) (object : Term) :
    s.subjects predicate object =
      (s.toList.filter fun u => u.object == object && u.predicate == predicate).map
        Triple.subject := by
  rw [TripleStore.subjects, h.pointingTo, List.filter_filter]
  simp only [Bool.and_comm]

theorem predicatesOf (subject : Term) :
    s.predicatesOf subject =
      (s.toList.filter fun u => u.subject == subject).map Triple.predicate := by
  rw [TripleStore.predicatesOf, h.about]

theorem mem_objects {subject o : Term} {predicate : Iri} :
    o ∈ s.objects subject predicate ↔ ⟨subject, predicate, o⟩ ∈ s.toList := by
  rw [h.objects, List.mem_map]
  constructor
  · rintro ⟨⟨subject', predicate', o'⟩, hmem, rfl⟩
    simp only [List.mem_filter, Bool.and_eq_true, beq_iff_eq] at hmem
    obtain ⟨hmem, rfl, rfl⟩ := hmem
    exact hmem
  · intro hmem
    exact ⟨_, List.mem_filter.2 ⟨hmem, by simp⟩, rfl⟩

theorem object?_isSome {subject : Term} {predicate : Iri} :
    (s.object? subject predicate).isSome = true ↔ ∃ o, ⟨subject, predicate, o⟩ ∈ s.toList := by
  rw [object?_eq_head?, List.isSome_head?]
  constructor
  · intro hne
    obtain ⟨o, ho⟩ := List.exists_mem_of_ne_nil _ hne
    exact ⟨o, h.mem_objects.1 ho⟩
  · rintro ⟨o, ho⟩
    exact List.ne_nil_of_mem (h.mem_objects.2 ho)

theorem has (t : Triple) : s.has t = s.toList.contains t := by
  rw [Bool.eq_iff_iff, TripleStore.has, List.contains_iff_mem, List.contains_iff_mem]
  exact h.mem_objects

end Indexed

theorem subjectTerms_eq_eraseDups (s : TripleStore) :
    s.subjectTerms = (s.toList.map Triple.subject).eraseDups :=
  addAll_nil_eq_eraseDups _

/-- After any additions to the empty store, its statements are those added, each at
the place where it was added first, and every query answers as a scan of this list
does: in the same order and with the same repeats.  All positions in the indexes are
positions of statements. -/
theorem queries_scan_additions (additions : List Triple) :
    let s := ofList additions
    let statements := additions.eraseDups
    s.toList = statements ∧
    (∀ t, s.contains t = true ↔ t ∈ additions) ∧
    (∀ subject predicate, s.objects subject predicate =
      (statements.filter fun t => t.subject == subject && t.predicate == predicate).map
        Triple.object) ∧
    (∀ subject predicate, s.object? subject predicate =
      (statements.find? fun t => t.subject == subject && t.predicate == predicate).map
        Triple.object) ∧
    (∀ predicate object, s.subjects predicate object =
      (statements.filter fun t => t.object == object && t.predicate == predicate).map
        Triple.subject) ∧
    (∀ t, s.has t = statements.contains t) ∧
    (∀ subject, s.predicatesOf subject =
      (statements.filter fun t => t.subject == subject).map Triple.predicate) ∧
    s.subjectTerms = (statements.map Triple.subject).eraseDups ∧
    ∀ t, ∀ i, i ∈ s.bySubject.positions t ∨ i ∈ s.byObject.positions t →
      i < statements.length := by
  intro s statements
  obtain ⟨hindexed, hlist⟩ := ofList_spec additions
  have hsize : s.triples.size = statements.length := congrArg List.length hlist
  refine ⟨hlist, fun t => ?_, fun subject predicate => ?_, fun subject predicate => ?_,
    fun predicate object => ?_, fun t => ?_, fun subject => ?_, ?_, fun t i hi => ?_⟩
  · rw [hindexed.contains, List.contains_iff_mem]
    exact mem_toList_ofList
  · rw [hindexed.objects, hlist]
  · rw [hindexed.object?, hlist]
  · rw [hindexed.subjects, hlist]
  · rw [hindexed.has, hlist]
  · rw [hindexed.predicatesOf, hlist]
  · rw [subjectTerms_eq_eraseDups, hlist]
  · rw [← hsize]
    rcases hi with hsubject | hobject
    · exact lt_size_of_mem_positionsOf (hindexed.bySubject t ▸ Array.mem_toList_iff.2 hsubject)
    · exact lt_size_of_mem_positionsOf (hindexed.byObject t ▸ Array.mem_toList_iff.2 hobject)

end TripleStore

end Rdf

end ShaclTypes
