import ShaclTypes.Proofs.Sightings
set_option autoImplicit false

/-!
# Whom a failed reading blames

A value of the wrong form is blamed on a shape and a predicate, and mostly there is a
statement about the shape with that predicate which brought the value (`Stated`).  Every
reader passes on what it was given to blame (`Honest`), but for the one of node kinds, which
names `sh:nodeKind` whatever it was given.  It also reads the node kinds of identifiers, and
there it blames a statement that need not exist (`blamed_statement`).
-/

namespace ShaclTypes

open ShaclTypes.Rdf ShaclTypes.Vocabulary

namespace Values

variable {α β : Type}

/-! ## Errors of a reading -/

theorem eq_error_of_map {f : α → β} {x : Read α} {e : ShapeError} (h : x.map f = .error e) :
    x = .error e := by
  cases x with
  | error e' =>
    obtain rfl := Except.error.inj h
    rfl
  | ok a => cases h

/-- If the reading fails, then with an error that has the property. -/
def FailsWith (p : ShapeError → Prop) (x : Read α) : Prop := ∀ e, x = .error e → p e

namespace FailsWith

variable {p : ShapeError → Prop} {x : Read α}

theorem pure (a : α) : FailsWith p (pure a : Read α) := by
  intro e h
  cases h

theorem bind {f : α → Read β} (hx : FailsWith p x) (hf : ∀ a, x = .ok a → FailsWith p (f a)) :
    FailsWith p (x >>= f) := by
  cases x with
  | error e =>
    rintro _ ⟨⟩
    exact hx e rfl
  | ok a => exact hf a rfl

/-- One reading after another, whatever the first gives. -/
theorem andThen {f : α → Read β} (hx : FailsWith p x) (hf : ∀ a, FailsWith p (f a)) :
    FailsWith p (x >>= f) :=
  hx.bind fun a _ => hf a

theorem map {f : α → β} (hx : FailsWith p x) : FailsWith p (x.map f) :=
  fun e h => hx e (eq_error_of_map h)

theorem mapM {f : α → Read β} {l : List α} (hf : ∀ a ∈ l, FailsWith p (f a)) :
    FailsWith p (l.mapM f) := by
  induction l with
  | nil => exact pure []
  | cons a l ih =>
    rw [List.mapM_cons]
    refine (hf a List.mem_cons_self).andThen fun b => ?_
    exact (ih fun a ha => hf a (List.mem_cons_of_mem _ ha)).andThen fun _ => pure _

end FailsWith

/-! ## Statements to blame -/

/-- A statement about the shape has the value for the predicate, or the head of a collection
with the value among its items. -/
def Stated (s : TripleStore) (shape : Term) (predicate : Iri) (value : Term) : Prop :=
  ∃ o ∈ s.objects shape predicate, value = o ∨ ∃ items, s.IsCollection o items ∧ value ∈ items

/-- Whom a reading can blame for a value of the wrong form: a statement that there is, or
`sh:nodeKind` in place of the node kinds of identifiers. -/
inductive Blamed (s : TripleStore) : ShapeError → Prop
  | malformedList (head : Term) : Blamed s (.malformedList head)
  | malformedPath (node : Term) : Blamed s (.malformedPath node)
  | stated {shape : Term} {predicate : Iri} {value : Term} (h : Stated s shape predicate value) :
      Blamed s (.invalidValue shape predicate value)
  | mislabelled {shape value : Term} (hstated : value ∈ s.objects shape gen.nodeKind)
      (hnone : value ∉ NodeKinds.table.map fun entry => .iri entry.1) :
      Blamed s (.invalidValue shape sh.nodeKind value)

/-- The reader fails only by blaming what it was given to blame. -/
def Honest (read : Reader α) : Prop :=
  ∀ shape predicate value, FailsWith (· = .invalidValue shape predicate value)
    (read shape predicate value)

/-- Each reader of a single value is of this form, but for the two of node kinds. -/
theorem honest_demand (parse : Term → Option α) :
    Honest fun shape predicate value => demand shape predicate value (parse value) :=
  fun _ _ _ _ h => (demand_eq_error h).1

section Readers

variable {s : TripleStore} {shape : Term} {predicate : Iri}

theorem failsWith_items (head : Term) : FailsWith (Blamed s) (items s head) := by
  unfold items
  split
  · exact .pure _
  · rintro _ ⟨⟩
    exact .malformedList head

theorem failsWith_members : FailsWith (Blamed s) (members s shape predicate) :=
  (FailsWith.mapM fun head _ => failsWith_items head).andThen fun _ => .pure _

namespace Honest

variable {read : Reader α} (hread : Honest read)
include hread

theorem failsWith_stated {value : Term} (h : Stated s shape predicate value) :
    FailsWith (Blamed s) (read shape predicate value) := by
  intro e he
  obtain rfl := hread shape predicate value e he
  exact .stated h

theorem failsWith_first? : FailsWith (Blamed s) (first? read s shape predicate) := by
  unfold first?
  split
  · exact .pure _
  · next value hvalue =>
    rw [TripleStore.object?_eq_head?] at hvalue
    exact (hread.failsWith_stated ⟨value, List.mem_of_head? hvalue, .inl rfl⟩).map

theorem failsWith_all : FailsWith (Blamed s) (all read s shape predicate) :=
  .mapM fun value hvalue => hread.failsWith_stated ⟨value, hvalue, .inl rfl⟩

theorem failsWith_membersOf : FailsWith (Blamed s) (membersOf read s shape predicate) := by
  refine FailsWith.andThen (.mapM fun head hhead => ?_) fun _ => .pure _
  refine (failsWith_items head).bind fun list hlist => .mapM fun value hvalue => ?_
  exact hread.failsWith_stated ⟨head, hhead, .inr ⟨list, items_eq_ok.1 hlist, hvalue⟩⟩

end Honest

/-- The values of `sh:nodeKind` are blamed on it. -/
theorem failsWith_nodeKinds : FailsWith (Blamed s) (all nodeKinds s shape sh.nodeKind) :=
  .mapM fun value hvalue e he => by
    obtain rfl := (demand_eq_error he).1
    exact .stated ⟨value, hvalue, .inl rfl⟩

/-- A node kind for identifiers that is none at all is blamed on `sh:nodeKind`; one that
includes literals is blamed on the statement that has it. -/
theorem failsWith_identifierKinds :
    FailsWith (Blamed s) (all identifierKinds s shape gen.nodeKind) := by
  refine .mapM fun value hvalue => FailsWith.andThen (fun e he => ?_) fun kinds => ?_
  · obtain ⟨rfl, hnone⟩ := demand_eq_error he
    refine .mislabelled hvalue fun hmem => ?_
    obtain ⟨entry, hentry, rfl⟩ := List.mem_map.1 hmem
    simpa using List.lookup_eq_none_iff.1 hnone entry hentry
  · split
    · rintro _ ⟨⟩
      exact .stated ⟨value, hvalue, .inl rfl⟩
    · exact .pure _

end Readers

end Values

open Values

variable {s : TripleStore} {shape : Term}

/-! ## Readings of shapes -/

theorem Path.failsWith_ofNode (trail : List Term) (node : Term) :
    FailsWith (Blamed s) (Path.ofNode s trail node) := by
  -- a path asks for no form of a value, only for its steps and collections
  fun_induction Path.ofNode s trail node with
  | case1 => exact .pure _
  | case2 | case3 =>
    rintro _ ⟨⟩
    exact .malformedPath _
  | case4 _ _ _ _ _ ih | case6 _ _ _ _ _ _ ih =>
    exact (failsWith_items _).andThen fun _ => (FailsWith.mapM fun step _ => ih step).andThen
      fun _ => .pure _
  | case5 _ _ _ _ _ _ ih | case7 _ _ _ _ _ _ ih | case8 _ _ _ _ _ _ ih | case9 _ _ _ _ _ _ ih =>
    exact ih.andThen fun _ => .pure _

theorem Shape.failsWith_pathOfStore : FailsWith (Blamed s) (Shape.pathOfStore s shape) := by
  unfold Shape.pathOfStore
  split
  · exact .pure _
  · exact (Path.failsWith_ofNode [] _).map

theorem Bounds.failsWith_ofStore : FailsWith (Blamed s) (Bounds.ofStore s shape) := by
  have hliteral : ∀ predicate, FailsWith (Blamed s) (first? literal s shape predicate) :=
    fun predicate => (honest_demand _).failsWith_first?
  exact (hliteral _).andThen fun _ => (hliteral _).andThen fun _ => (hliteral _).andThen fun _ =>
    (hliteral _).andThen fun _ => .pure _

/-- The constraints, field by field in the order in which they are read. -/
theorem Constraints.failsWith_ofStore : FailsWith (Blamed s) (Constraints.ofStore s shape) :=
  failsWith_members.andThen fun _ =>
  failsWith_members.andThen fun _ =>
  failsWith_members.andThen fun _ =>
  failsWith_members.andThen fun _ =>
  (honest_demand _).failsWith_membersOf.andThen fun _ =>
  (honest_demand _).failsWith_all.andThen fun _ =>
  (honest_demand _).failsWith_first?.andThen fun _ =>
  (honest_demand _).failsWith_first?.andThen fun _ =>
  (honest_demand _).failsWith_first?.andThen fun _ =>
  Bounds.failsWith_ofStore.andThen fun _ =>
  failsWith_nodeKinds.andThen fun _ => .pure _

theorem Annotations.failsWith_labelOfStore :
    FailsWith (Blamed s) (Annotations.labelOfStore s shape) := by
  refine (honest_demand _).failsWith_first?.andThen fun name => ?_
  cases name with
  | some label => exact .pure _
  | none => exact (honest_demand _).failsWith_first?

/-- The annotations, field by field in the order in which they are read. -/
theorem Annotations.failsWith_ofStore : FailsWith (Blamed s) (Annotations.ofStore s shape) :=
  (honest_demand _).failsWith_first?.andThen fun _ =>
  failsWith_labelOfStore.andThen fun _ =>
  (honest_demand _).failsWith_first?.andThen fun _ =>
  (honest_demand _).failsWith_first?.andThen fun _ =>
  (honest_demand _).failsWith_first?.andThen fun _ =>
  (honest_demand _).failsWith_first?.andThen fun _ =>
  (honest_demand _).failsWith_first?.andThen fun _ =>
  (honest_demand _).failsWith_first?.andThen fun _ =>
  (honest_demand _).failsWith_first?.andThen fun _ =>
  (honest_demand _).failsWith_first?.andThen fun _ =>
  (honest_demand _).failsWith_first?.andThen fun _ =>
  (honest_demand _).failsWith_first?.andThen fun _ =>
  failsWith_identifierKinds.andThen fun _ =>
  (honest_demand _).failsWith_first?.andThen fun _ => .pure _

theorem Shape.failsWith_ofStore : FailsWith (Blamed s) (Shape.ofStore s shape) :=
  failsWith_pathOfStore.andThen fun _ =>
  (honest_demand _).failsWith_all.andThen fun _ =>
  Constraints.failsWith_ofStore.andThen fun _ =>
  Annotations.failsWith_ofStore.andThen fun _ => .pure _

theorem Sighting.failsWith_ofTriple (statement : Triple) :
    FailsWith (Blamed s) (Sighting.ofTriple s statement) := by
  unfold Sighting.ofTriple
  repeat' split
  all_goals first
    | exact .pure _
    | exact (failsWith_items _).andThen fun _ => .pure _

namespace ShapesGraph

/-- A shapes graph that cannot be loaded has something to blame. -/
theorem failsWith_ofStore (prefixes : PrefixMap) : FailsWith (Blamed s) (ofStore s prefixes) :=
  (FailsWith.mapM fun statement _ => Sighting.failsWith_ofTriple statement).andThen fun _ =>
  (FailsWith.mapM fun _ _ => Shape.failsWith_ofStore).andThen fun _ => .pure _

/-- A value that is blamed when statements are loaded was stated: there is a statement about
the shape, with the predicate, that has the value or the head of a collection with it.  This
only fails for values of `shaclgen:nodeKind` that are no node kind; they are blamed on
`sh:nodeKind`. -/
theorem blamed_statement {triples : List Triple} {prefixes : PrefixMap} {shape : Term}
    {predicate : Iri} {value : Term}
    (h : ofTriples triples prefixes = .error (.invalidValue shape predicate value)) :
    (∃ o, ⟨shape, predicate, o⟩ ∈ triples ∧
      (value = o ∨ ∃ items, TripleStore.IsCollection (.ofList triples) o items ∧ value ∈ items)) ∨
    predicate = sh.nodeKind ∧ ⟨shape, gen.nodeKind, value⟩ ∈ triples ∧
      value ∉ NodeKinds.table.map fun entry => .iri entry.1 := by
  have hmem : ∀ {predicate : Iri} {o : Term},
      o ∈ TripleStore.objects (.ofList triples) shape predicate →
        ⟨shape, predicate, o⟩ ∈ triples :=
    fun ho => TripleStore.mem_toList_ofList.1
      ((TripleStore.indexed_ofList triples).mem_objects.1 ho)
  cases failsWith_ofStore prefixes _ h with
  | stated hstated =>
    obtain ⟨o, ho, hvalue⟩ := hstated
    exact .inl ⟨o, hmem ho, hvalue⟩
  | mislabelled hstated hnone => exact .inr ⟨rfl, hmem hstated, hnone⟩

/-- On a sign, the one language that is listed is not a text. -/
def sign : List Triple :=
  [⟨.iri ⟨"sign"⟩, rdf.type, .iri sh.nodeShape⟩,
   ⟨.iri ⟨"sign"⟩, sh.languageIn, .blank "languages"⟩,
   ⟨.blank "languages", rdf.first, .iri ⟨"french"⟩⟩,
   ⟨.blank "languages", rdf.rest, .iri rdf.nil⟩]

theorem blamed_statement_sign :
    ofTriples sign .empty = .error (.invalidValue (.iri ⟨"sign"⟩) sh.languageIn (.iri ⟨"french"⟩)) ∧
    ∃ o, ⟨.iri ⟨"sign"⟩, sh.languageIn, o⟩ ∈ sign ∧ (.iri ⟨"french"⟩ = o ∨
      ∃ items, TripleStore.IsCollection (.ofList sign) o items ∧ .iri ⟨"french"⟩ ∈ items) := by
  have hrun : ofTriples sign .empty =
      .error (.invalidValue (.iri ⟨"sign"⟩) sh.languageIn (.iri ⟨"french"⟩)) :=
    eq_error_of_map (f := fun _ => ()) (by decide +kernel)
  refine ⟨hrun, (blamed_statement hrun).resolve_right fun h => ?_⟩
  exact absurd h.1 (by decide)

/-- A bird is to be identified by a feather, which is no node kind. -/
def bird : List Triple :=
  [⟨.iri ⟨"bird"⟩, rdf.type, .iri sh.nodeShape⟩,
   ⟨.iri ⟨"bird"⟩, gen.nodeKind, .iri ⟨"feather"⟩⟩]

/-- The feather is blamed on a predicate that nothing is stated with. -/
theorem feather_mislabelled :
    ofTriples bird .empty = .error (.invalidValue (.iri ⟨"bird"⟩) sh.nodeKind (.iri ⟨"feather"⟩)) ∧
    ¬∃ o, ⟨.iri ⟨"bird"⟩, sh.nodeKind, o⟩ ∈ bird := by
  refine ⟨eq_error_of_map (f := fun _ => ()) (by decide +kernel), ?_⟩
  rintro ⟨o, ho⟩
  have hpredicate : ∀ statement ∈ bird, statement.predicate ≠ sh.nodeKind := by decide
  exact hpredicate _ ho rfl

end ShapesGraph

end ShaclTypes
