import ShaclTypes.Proofs.Kinship
import ShaclTypes.Proofs.WholeGraph
set_option autoImplicit false

/-!
# List cells of a finished model

Whether an object type is a list cell is decided once, at the end of its own resolution,
when object types around it may still be without properties and later failures may still
drop some.  What it is decided by is there to stay: the entry's own properties and its
own number.  So the decision is the one that the finished model asks for
(`AllSettled.listItemType_eq`), which is spelled out here without a search for
properties (`ObjectType.IsCellOf`) and without a search for classes
(`ClassHierarchy.StrictlyBelow`), and the two are equivalent (`list_cells_exact`).
-/

namespace ShaclTypes

open ShaclTypes.Rdf ShaclTypes.Vocabulary

/-! ## The form of a list cell -/

/-- Under its cardinality, the type is a union of exactly two types, one a reference to
the cell itself and one an identifier, in either order. -/
def ValueType.EndsOrGoesOn (cell : ObjectId) (t : ValueType) : Prop :=
  ∃ inline nil,
    t.withoutCardinality = .composite .union [.object cell inline, .identifier nil] ∨
      t.withoutCardinality = .composite .union [.identifier nil, .object cell inline]

/-- The object type has exactly two properties, one for the item, which is of the given
type, and one for the rest. -/
def ObjectType.IsCellOf (o : ObjectType) (id : ObjectId) (item : ValueType) : Prop :=
  ∃ first rest, (o.properties = [first, rest] ∨ o.properties = [rest, first]) ∧
    first.path = rdf.first ∧ first.type = item ∧
    rest.path = rdf.rest ∧ rest.type.EndsOrGoesOn id

namespace ValueType

theorem isReferenceTo_eq_true {id : ObjectId} {t : ValueType} :
    t.isReferenceTo id = true ↔ ∃ inline, t = object id inline := by
  cases t <;> simp [isReferenceTo, object?]

theorem isIdentifier_eq_true {t : ValueType} :
    t.isIdentifier = true ↔ ∃ type, t = identifier type := by
  cases t <;> simp [isIdentifier]

theorem isListTail_eq_true {cell : ObjectId} {t : ValueType} :
    t.isListTail cell = true ↔ t.EndsOrGoesOn cell := by
  unfold isListTail EndsOrGoesOn
  split
  · next a b hunion =>
    rw [hunion]
    simp only [Bool.or_eq_true, Bool.and_eq_true, isReferenceTo_eq_true, isIdentifier_eq_true,
      composite.injEq, true_and, List.cons.injEq, and_true]
    constructor
    · rintro (⟨⟨inline, rfl⟩, nil, rfl⟩ | ⟨⟨nil, rfl⟩, inline, rfl⟩)
      · exact ⟨inline, nil, .inl ⟨rfl, rfl⟩⟩
      · exact ⟨inline, nil, .inr ⟨rfl, rfl⟩⟩
    · rintro ⟨inline, nil, ⟨rfl, rfl⟩ | ⟨rfl, rfl⟩⟩
      · exact .inl ⟨⟨inline, rfl⟩, nil, rfl⟩
      · exact .inr ⟨⟨nil, rfl⟩, inline, rfl⟩
  · next hother =>
    refine iff_of_false Bool.false_ne_true ?_
    rintro ⟨inline, nil, hunion | hunion⟩ <;> exact hother _ _ hunion

end ValueType

namespace ObjectType

variable {o : ObjectType} {id : ObjectId} {item : ValueType}

/-- Two properties for different predicates are found under their predicates, whichever
comes first. -/
theorem properties_eq_pair {first rest : Property} (htwo : o.properties.length = 2)
    (hfirst : o.property? rdf.first = some first) (hrest : o.property? rdf.rest = some rest) :
    o.properties = [first, rest] ∨ o.properties = [rest, first] := by
  have hfirst' : first.path = rdf.first := by simpa using List.find?_some hfirst
  have hrest' : rest.path = rdf.rest := by simpa using List.find?_some hrest
  obtain ⟨p, q, hpair⟩ := List.length_eq_two.1 htwo
  have hmem := List.mem_of_find?_eq_some hfirst
  have hmem' := List.mem_of_find?_eq_some hrest
  have hne : first ≠ rest := by
    rintro rfl
    exact absurd (hfirst'.symm.trans hrest') (by decide)
  rw [hpair] at hmem hmem' ⊢
  simp only [List.mem_cons, List.not_mem_nil, or_false] at hmem hmem'
  rcases hmem with rfl | rfl <;> rcases hmem' with rfl | rfl
  · exact absurd rfl hne
  · exact .inl rfl
  · exact .inr rfl
  · exact absurd rfl hne

/-- An object type has an item type exactly if it has the form of a list cell. -/
theorem itemTypeAs?_eq_some : o.itemTypeAs? id = some item ↔ o.IsCellOf id item := by
  unfold itemTypeAs?
  constructor
  · intro h
    split at h
    · next htwo =>
      obtain ⟨first, hfirst, hbind⟩ := Option.bind_eq_some_iff.1 h
      obtain ⟨rest, hrest, hlast⟩ := Option.bind_eq_some_iff.1 hbind
      split at hlast
      · next htail =>
        refine ⟨first, rest, properties_eq_pair htwo hfirst hrest, ?_, Option.some.inj hlast, ?_,
          ValueType.isListTail_eq_true.1 htail⟩
        · simpa using List.find?_some hfirst
        · simpa using List.find?_some hrest
      · cases hlast
    · cases h
  · rintro ⟨first, rest, hpair, hfirst, rfl, hrest, htail⟩
    have hapart : rdf.first ≠ rdf.rest := by decide
    have htail' := ValueType.isListTail_eq_true.2 htail
    rcases hpair with hpair | hpair <;>
      simp [property?, hpair, hfirst, hrest, htail', hapart, hapart.symm]

end ObjectType

/-! ## Strict subclasses -/

namespace ClassHierarchy

/-- The second class is above the first through one or more direct superclasses, and is
not the first itself. -/
def StrictlyBelow (h : ClassHierarchy) (c d : Term) : Prop :=
  d ≠ c ∧ Relation.TransGen h.above.Step c d

theorem isSubclassOf_eq_true {h : ClassHierarchy} {c d : Term} :
    h.isSubclassOf c d = true ↔ h.StrictlyBelow c d := by
  unfold isSubclassOf StrictlyBelow
  rw [List.contains_iff_mem, relatives, Adjacency.mem_closure]
  refine and_congr_right fun hne => ?_
  rw [Relation.reflTransGen_iff_eq_or_transGen, or_iff_right hne]

end ClassHierarchy

/-! ## List cells -/

namespace Resolver

open ShapesGraph

variable {g : ShapesGraph} {settings : Settings} {s : State}

/-- The item type of a settled object type is the one that its properties call for now. -/
theorem AllSettled.listItemType_eq (h : AllSettled g settings s) {id : ObjectId} {o : ObjectType}
    (ho : s.model.object? id = some o) :
    ∃ shape, g.member? o.name.identifier = some shape ∧
      o.listItemType = if g.isSubclassOf shape.1 (.iri rdf.list) then o.itemTypeAs? id
        else none := by
  have hinj : (g.numbering s.model).Injective := numbering_injective h.sound
  obtain ⟨shape, hsettled, -, hreads⟩ := h.of_object? ho
  refine ⟨shape, hsettled.member, ?_⟩
  have hnumber : (g.numbering s.model).object id = ⟨g.number shape.1.identifier⟩ := by
    rw [identifier_of_member? hsettled.member]
    simp only [numbering, TypeModel.owner?_of_object? ho, slotOf]
  -- the entry and the expected one differ in nothing that the item type depends on
  have hitem : (typedObject g (namer g settings) (resolvableIn g .outermost) shape.1).itemTypeAs?
      ⟨g.number shape.1.identifier⟩ =
        (o.itemTypeAs? id).map (ValueType.renumber (g.numbering s.model)) := by
    rw [← ObjectType.itemTypeAs?_renumber hinj, hreads, hnumber]
    rfl
  have hlist : o.listItemType.map (ValueType.renumber (g.numbering s.model)) =
      expectedItem? g (namer g settings) (resolvableIn g .outermost) shape.1 :=
    congrArg ObjectType.listItemType hreads
  rw [expectedItem?, hitem] at hlist
  have hrenumber : Function.Injective (ValueType.renumber (g.numbering s.model)) :=
    ValueType.renumber_injective hinj
  refine Option.map_injective hrenumber ?_
  rw [hlist]
  split <;> rfl

/-- In the model of a graph, an object type is a list cell with items of a type exactly if
its shape is strictly below `rdf:List` in the class hierarchy and its two properties are
an item of that type and a rest that is the object type itself or an identifier. -/
theorem list_cells_exact {m : TypeModel} (hok : (resolveGraph g settings).1 = .ok m)
    {id : ObjectId} {o : ObjectType} (ho : m.object? id = some o) :
    ∃ shape, g.member? o.name.identifier = some shape ∧
      ∀ item, o.listItemType = some item ↔
        g.hierarchy.StrictlyBelow shape.1.identifier (.iri rdf.list) ∧ o.IsCellOf id item := by
  have hspec := ensures_resolveAll g settings
  cases hrun : outcome (resolveAll g settings) .empty with
  | mk result s =>
    rw [resolveGraph, hrun] at hok
    obtain rfl : result = .ok m := hok
    obtain ⟨rfl, hsettled, -⟩ := hspec.ok rfl hrun
    obtain ⟨shape, hmember, hlist⟩ := hsettled.listItemType_eq ho
    refine ⟨shape, hmember, fun item => ?_⟩
    rw [hlist, ← ClassHierarchy.isSubclassOf_eq_true, ← ObjectType.itemTypeAs?_eq_some]
    unfold isSubclassOf
    split
    · next hbelow => simp only [hbelow, true_and]
    · next hbelow => simp only [reduceCtorEq, hbelow, false_and]

/-! A queue is a list by way of chains.  A couple has the same two properties, but no class
above it, and what comes after its first is a queue. -/

/-- What the first of a queue is. -/
def front : Shape where
  identifier := .blank "front"
  path := some (.predicate rdf.first)
  constraints := { datatype := some xsd.string, minCount := some 1, maxCount := some 1 }

/-- What ends a queue. -/
def stop : Shape where
  identifier := .blank "stop"
  constraints := { fixedValues := [.iri rdf.nil] }

/-- What comes after the first of a queue: a queue, or nothing. -/
def behind : Shape where
  identifier := .blank "behind"
  path := some (.predicate rdf.rest)
  constraints := { anyOf := [.blank "queue", stop.identifier] }

/-- Queues. -/
def queue : Shape where
  identifier := .blank "queue"
  constraints := { properties := [front.identifier, behind.identifier] }

/-- Couples. -/
def couple : Shape := { queue with identifier := .blank "couple" }

/-- The graph of queues and couples. -/
def queues : ShapesGraph where
  shapes := [queue, couple, front, behind, stop]
  declared := [queue.identifier, couple.identifier]
  hierarchy := .addEdges .empty
    [(queue.identifier, .blank "chain"), (.blank "chain", .iri rdf.list)]
  prefixes := .empty

theorem list_cells_exact_queue : ∃ m o, (resolveGraph queues .standard).1 = .ok m ∧
    m.object? ⟨0⟩ = some o ∧ ∃ item, o.listItemType = some item ∧
      queues.hierarchy.StrictlyBelow queue.identifier (.iri rdf.list) ∧ o.IsCellOf ⟨0⟩ item := by
  have hrun : (resolveGraph queues .standard).1.toOption.map (fun m =>
      m.objects.map fun o => (o.name.identifier, o.isList)) =
      some [(queue.identifier, true), (couple.identifier, false)] := by decide +kernel
  cases hok : (resolveGraph queues .standard).1 with
  | error e => rw [hok] at hrun; cases hrun
  | ok m =>
    rw [hok] at hrun
    obtain ⟨o, rest, hm, ho, -⟩ := List.map_eq_cons_iff.1 (Option.some.inj hrun)
    obtain ⟨hname, hlist⟩ := Prod.mk.inj ho
    have ho' : m.object? ⟨0⟩ = some o := by rw [TypeModel.object?, hm]; rfl
    obtain ⟨item, hitem⟩ := Option.isSome_iff_exists.1 hlist
    obtain ⟨shape, hmember, hexact⟩ := list_cells_exact hok ho'
    rw [hname] at hmember
    obtain rfl : ⟨queue, by simp [queues]⟩ = shape := Option.some.inj hmember
    exact ⟨m, o, rfl, ho', item, hitem, (hexact item).1 hitem⟩

end Resolver

end ShaclTypes
