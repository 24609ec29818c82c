import ShaclTypes.Resolution.Value
set_option autoImplicit false

/-!
# Renumbering the entries of a model

Entries are referred to by number, and the number of an entry depends on the
moment at which it was added.  What is done with types in a resolution does not:
a type may be collapsed, wrapped or looked into before its references are
renumbered, or after.  Only the recognition of list cells compares references,
and it asks for numbers that stay apart.
-/

namespace ShaclTypes

open ShaclTypes.Rdf ShaclTypes.Vocabulary

/-- New numbers for the entries of a model. -/
structure Renumbering where
  object : ObjectId → ObjectId
  composite : CompositeKind → CompositeId → CompositeId

/-- Different entries keep different numbers. -/
structure Renumbering.Injective (ρ : Renumbering) : Prop where
  object : Function.Injective ρ.object
  composite : ∀ kind, Function.Injective (ρ.composite kind)

/-! ## Renumbering -/

/-- The entry with its new number. -/
def NodeType.renumber (ρ : Renumbering) : NodeType → NodeType
  | object id => object (ρ.object id)
  | composite kind id => composite kind (ρ.composite kind id)

namespace ValueType

mutual

/-- The type with new numbers in its references. -/
def renumber (ρ : Renumbering) : ValueType → ValueType
  | literal type => literal type
  | identifier type => identifier type
  | composite kind members => composite kind (renumberList ρ members)
  | set item minCount => set (item.renumber ρ) minCount
  | option item => option (item.renumber ρ)
  | object id inline => object (ρ.object id) inline
  | objectComposite kind id => objectComposite kind (ρ.composite kind id)

/-- The types of a list with new numbers in their references. -/
def renumberList (ρ : Renumbering) : List ValueType → List ValueType
  | [] => []
  | t :: rest => t.renumber ρ :: renumberList ρ rest

end

theorem renumberList_eq_map (ρ : Renumbering) (types : List ValueType) :
    renumberList ρ types = types.map (renumber ρ) := by
  induction types with
  | nil => rfl
  | cons t rest ih => rw [renumberList, List.map_cons, ih]

end ValueType

/-- The property with new numbers in its type. -/
def Property.renumber (ρ : Renumbering) (p : Property) : Property :=
  { p with type := p.type.renumber ρ }

/-- The object type with new numbers for its relatives and in its types. -/
def ObjectType.renumber (ρ : Renumbering) (o : ObjectType) : ObjectType :=
  { o with
    properties := o.properties.map (Property.renumber ρ)
    parents := o.parents.map ρ.object
    ancestors := o.ancestors.map ρ.object
    children := o.children.map ρ.object
    descendants := o.descendants.map ρ.object
    listItemType := o.listItemType.map (ValueType.renumber ρ) }

/-- The composite with new numbers for its members. -/
def ObjectComposite.renumber (ρ : Renumbering) (c : ObjectComposite) : ObjectComposite :=
  { c with members := c.members.map ρ.object }

theorem NodeType.object?_renumber (ρ : Renumbering) (type : NodeType) :
    (type.renumber ρ).object? = type.object?.map ρ.object := by
  cases type <;> rfl

/-! ## Numbers that stay apart -/

/-- Collecting without repeats and renumbering commute. -/
theorem map_addAll {α β : Type} [DecidableEq α] [DecidableEq β] {f : α → β}
    (hf : Function.Injective f) (met more : List α) :
    (addAll met more).map f = addAll (met.map f) (more.map f) := by
  induction more generalizing met with
  | nil => rfl
  | cons a more ih =>
    have hnew : (addNew met a).map f = addNew (met.map f) (f a) := by
      by_cases ha : a ∈ met
      · simp [addNew, ha, List.mem_map_of_mem ha]
      · have hfa : f a ∉ met.map f := by
          intro hmem
          obtain ⟨b, hb, heq⟩ := List.mem_map.1 hmem
          exact ha (hf heq ▸ hb)
        simp [addNew, ha, hfa]
    rw [addAll_cons, ih, hnew, List.map_cons, addAll_cons]

namespace ValueType

variable {ρ : Renumbering}

mutual

theorem renumber_injective (hρ : ρ.Injective) :
    (v w : ValueType) → v.renumber ρ = w.renumber ρ → v = w
  | literal _, w, h => by cases w <;> simp_all [renumber]
  | identifier _, w, h => by cases w <;> simp_all [renumber]
  | composite _ members, w, h => by
    cases w with
    | composite kind members' =>
      simp only [renumber, composite.injEq] at h
      rw [h.1, renumberList_injective hρ members members' h.2]
    | _ => simp [renumber] at h
  | set item _, w, h => by
    cases w with
    | set item' n =>
      simp only [renumber, set.injEq] at h
      rw [renumber_injective hρ item item' h.1, h.2]
    | _ => simp [renumber] at h
  | option item, w, h => by
    cases w with
    | option item' =>
      simp only [renumber, option.injEq] at h
      rw [renumber_injective hρ item item' h]
    | _ => simp [renumber] at h
  | object _ _, w, h => by
    cases w with
    | object id inline =>
      simp only [renumber, object.injEq] at h
      rw [hρ.object h.1, h.2]
    | _ => simp [renumber] at h
  | objectComposite _ _, w, h => by
    cases w with
    | objectComposite kind id =>
      simp only [renumber, objectComposite.injEq] at h
      obtain ⟨rfl, hid⟩ := h
      rw [hρ.composite _ hid]
    | _ => simp [renumber] at h

theorem renumberList_injective (hρ : ρ.Injective) :
    (vs ws : List ValueType) → renumberList ρ vs = renumberList ρ ws → vs = ws
  | [], [], _ => rfl
  | [], _ :: _, h => by simp [renumberList] at h
  | _ :: _, [], h => by simp [renumberList] at h
  | v :: vs, w :: ws, h => by
    simp only [renumberList, List.cons.injEq] at h
    rw [renumber_injective hρ v w h.1, renumberList_injective hρ vs ws h.2]

end

end ValueType

theorem Property.renumber_injective {ρ : Renumbering} (hρ : ρ.Injective) :
    Function.Injective (Property.renumber ρ) := by
  intro p q h
  obtain ⟨name, path, type, visibility⟩ := p
  obtain ⟨name', path', type', visibility'⟩ := q
  simp only [Property.renumber, Property.mk.injEq] at h
  obtain ⟨rfl, rfl, htype, rfl⟩ := h
  rw [ValueType.renumber_injective hρ _ _ htype]

/-! ## What is done with types -/

namespace ValueType

variable (ρ : Renumbering)

@[simp] theorem withoutCardinality_renumber : (t : ValueType) →
    (t.renumber ρ).withoutCardinality = t.withoutCardinality.renumber ρ
  | literal _ | identifier _ | composite _ _ | object _ _ | objectComposite _ _ => by
    simp only [renumber, withoutCardinality]
  | set item _ => by
    simp only [renumber, withoutCardinality, withoutCardinality_renumber item]
  | option item => by
    simp only [renumber, withoutCardinality, withoutCardinality_renumber item]

@[simp] theorem isGenericLiteral_renumber (t : ValueType) :
    (t.renumber ρ).isGenericLiteral = t.isGenericLiteral := by
  cases t <;> simp only [renumber, isGenericLiteral]

@[simp] theorem identifierKinds?_renumber (t : ValueType) :
    (t.renumber ρ).identifierKinds? = t.identifierKinds? := by
  cases t <;> simp only [renumber, identifierKinds?]

@[simp] theorem isIdentifier_renumber (t : ValueType) :
    (t.renumber ρ).isIdentifier = t.isIdentifier := by
  cases t <;> simp only [renumber, isIdentifier]

/-- The shortcuts refer to no entry, and are taken whatever the numbers are. -/
theorem shortcut?_renumber (members : List ValueType) :
    shortcut? (members.map (renumber ρ)) = (shortcut? members).map (renumber ρ) := by
  have hkinds : (members.map (renumber ρ)).mapM identifierKinds? =
      members.mapM identifierKinds? := by
    induction members with
    | nil => rfl
    | cons t rest ih =>
      rw [List.map_cons, List.mapM_cons, List.mapM_cons, ih, identifierKinds?_renumber]
  have hliterals : ((members.map (renumber ρ)).all fun t => t.withoutCardinality.isGenericLiteral)
      = members.all fun t => t.withoutCardinality.isGenericLiteral := by
    simp [List.all_map, Function.comp_def]
  unfold shortcut?
  rw [hkinds, hliterals]
  split
  · simp only [Option.map_some, renumber]
  · simp only [Option.map_map, Function.comp_def, renumber]

theorem composite?_renumber (kind : CompositeKind) (members : List ValueType) :
    composite? kind (members.map (renumber ρ)) = (composite? kind members).map (renumber ρ) := by
  unfold composite?
  rw [List.length_map]
  split
  · rfl
  · simp only [Except.map, renumber, renumberList_eq_map]

/-- Collapsing and renumbering commute. -/
theorem collapse_renumber (kind : CompositeKind) (hasFixedValue : Bool)
    (members : List ValueType) :
    collapse kind hasFixedValue (members.map (renumber ρ)) =
      (collapse kind hasFixedValue members).map (renumber ρ) := by
  by_cases hone : members.length = 1
  · obtain ⟨member, rfl⟩ := List.length_eq_one_iff.1 hone
    rfl
  · have hmapped : (members.map (renumber ρ)).length ≠ 1 := by rwa [List.length_map]
    rw [collapse_of_length_ne_one kind hasFixedValue hone,
      collapse_of_length_ne_one kind hasFixedValue hmapped, shortcut?_renumber,
      composite?_renumber]
    cases hasFixedValue
    · cases shortcut? members <;> rfl
    · rfl

end ValueType

/-- Wrapping and renumbering commute. -/
theorem Cardinality.wrap_renumber (c : Cardinality) (ρ : Renumbering) (item : ValueType) :
    c.wrap (item.renumber ρ) = (c.wrap item).renumber ρ := by
  unfold Cardinality.wrap
  repeat' split
  all_goals simp only [ValueType.renumber]

/-! ## List cells -/

section Lists

variable {ρ : Renumbering} (hρ : ρ.Injective)
include hρ

theorem ValueType.isReferenceTo_renumber (id : ObjectId) (t : ValueType) :
    (t.renumber ρ).isReferenceTo (ρ.object id) = t.isReferenceTo id := by
  cases t with
  | object id' inline =>
    have hsame : ρ.object id' = ρ.object id ↔ id' = id := hρ.object.eq_iff
    simp only [renumber, isReferenceTo, object?, Option.some_beq_some]
    rw [Bool.eq_iff_iff, beq_iff_eq, beq_iff_eq, hsame]
  | _ => simp [renumber, isReferenceTo, object?]

theorem ValueType.isListTail_renumber (cell : ObjectId) (t : ValueType) :
    (t.renumber ρ).isListTail (ρ.object cell) = t.isListTail cell := by
  unfold isListTail
  rw [withoutCardinality_renumber]
  cases t.withoutCardinality with
  | composite kind members =>
    cases kind with
    | intersection => simp [renumber]
    | union =>
      match members with
      | [] | [_] | _ :: _ :: _ :: _ => simp [renumber, renumberList]
      | [a, b] => simp [renumber, renumberList, isReferenceTo_renumber hρ]
  | _ => simp [renumber]

omit hρ in
theorem ObjectType.property?_renumber (o : ObjectType) (path : Iri) :
    (o.renumber ρ).property? path = (o.property? path).map (Property.renumber ρ) := by
  simp only [ObjectType.property?, ObjectType.renumber, List.find?_map]
  rfl

/-- A list cell is recognised whatever its number is. -/
theorem ObjectType.itemTypeAs?_renumber (o : ObjectType) (id : ObjectId) :
    (o.renumber ρ).itemTypeAs? (ρ.object id) = (o.itemTypeAs? id).map (ValueType.renumber ρ) := by
  unfold ObjectType.itemTypeAs?
  rw [ObjectType.property?_renumber, ObjectType.property?_renumber,
    show (o.renumber ρ).properties.length = o.properties.length from List.length_map _]
  split
  · cases o.property? rdf.first with
    | none => rfl
    | some first =>
      cases o.property? rdf.rest with
      | none => rfl
      | some rest =>
        have htail := rest.type.isListTail_renumber hρ id
        simp only [Option.map_some, Option.bind_eq_bind, Option.bind_some, Property.renumber,
          htail]
        split <;> rfl
  · rfl

end Lists

end ShaclTypes
