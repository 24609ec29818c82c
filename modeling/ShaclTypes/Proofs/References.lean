import ShaclTypes.Model.Summary
import ShaclTypes.Proofs.Failure
import ShaclTypes.Proofs.Leaves
import ShaclTypes.Proofs.Upkeep
set_option autoImplicit false

/-!
# References lead to entries

Wherever a model refers to an object type or to a composite, at whatever depth of a
type, the entry is there, although entries are dropped whenever a node shape fails.
Hence the model has a summary (`TypeModel.summary?_isSome`), and since every composite
has two members or more by the time it can be seen, the final check never fails
(`references_intact`).
-/

namespace ShaclTypes

open ShaclTypes.Rdf

/-! ## Targets -/

/-- The entry that a leaf of a type refers to. -/
def ValueType.target? : ValueType → Option NodeType
  | object id _ => some (.object id)
  | objectComposite kind id => some (.composite kind id)
  | literal _ | identifier _ | composite _ _ | set _ _ | option _ => none

/-- The entries that a type refers to, at any depth. -/
def ValueType.targets (v : ValueType) : List NodeType := v.leaves.filterMap target?

/-- The entries that an object type refers to: its relatives, and what the types of its
properties and of its list items refer to. -/
def ObjectType.targets (o : ObjectType) : List NodeType :=
  o.relatives.map .object ++ o.properties.flatMap (fun p => p.type.targets) ++
    o.listItemType.toList.flatMap ValueType.targets

/-- The entries that a model refers to. -/
def TypeModel.targets (m : TypeModel) : List NodeType :=
  m.objects.flatMap ObjectType.targets ++
    (m.intersections ++ m.unions).flatMap fun c => c.members.map .object

/-- Every reference in a model leads to an entry. -/
def TypeModel.Closed (m : TypeModel) : Prop := ∀ type ∈ m.targets, m.extent.holds type = true

/-- A type refers to entries of a model only. -/
def ValueType.ClosedIn (v : ValueType) (m : TypeModel) : Prop :=
  ∀ type ∈ v.targets, m.extent.holds type = true

/-! ## Closed models have summaries -/

section Summaries

variable {α β : Type} {m : TypeModel}

theorem isSome_bind {x : Option α} {f : α → Option β} (hx : x.isSome = true)
    (hf : ∀ a, (f a).isSome = true) : (x >>= f).isSome = true := by
  obtain ⟨a, rfl⟩ := Option.isSome_iff_exists.1 hx
  exact hf a

theorem isSome_mapM {f : α → Option β} {l : List α} (h : ∀ a ∈ l, (f a).isSome = true) :
    (l.mapM f).isSome = true := by
  induction l with
  | nil => rfl
  | cons a l ih =>
    obtain ⟨b, hb⟩ := Option.isSome_iff_exists.1 (h a List.mem_cons_self)
    obtain ⟨bs, hbs⟩ := Option.isSome_iff_exists.1
      (ih fun c hc => h c (List.mem_cons_of_mem a hc))
    simp [List.mapM_cons, hb, hbs]

namespace ValueType

theorem closedIn_iff_leaves {v : ValueType} :
    v.ClosedIn m ↔ ∀ leaf ∈ v.leaves, ∀ type, leaf.target? = some type →
      m.extent.holds type = true := by
  constructor
  · exact fun h leaf hleaf type htype => h type (List.mem_filterMap.2 ⟨leaf, hleaf, htype⟩)
  · intro h type htype
    obtain ⟨leaf, hleaf, htype⟩ := List.mem_filterMap.1 htype
    exact h leaf hleaf type htype

end ValueType

namespace TypeModel

theorem objectName?_isSome {id : ObjectId} (h : m.extent.holds (.object id) = true) :
    (m.objectName? id).isSome = true := by
  obtain ⟨owner, howner⟩ := holds_iff_owner.1 h
  obtain ⟨o, ho, -⟩ := Option.map_eq_some_iff.1 howner
  rw [objectName?, ho]
  rfl

theorem compositeName?_isSome {kind : CompositeKind} {id : CompositeId}
    (h : m.extent.holds (.composite kind id) = true) :
    (m.compositeName? kind id).isSome = true := by
  obtain ⟨owner, howner⟩ := holds_iff_owner.1 h
  obtain ⟨c, hc, -⟩ := Option.map_eq_some_iff.1 howner
  rw [compositeName?, hc]
  rfl

theorem objectNames?_isSome {ids : List ObjectId}
    (h : ∀ id ∈ ids, m.extent.holds (.object id) = true) : (m.objectNames? ids).isSome = true := by
  rw [objectNames?, Option.isSome_map]
  exact isSome_mapM fun id hid => objectName?_isSome (h id hid)

mutual

/-- A type that refers to entries only has a summary. -/
theorem typeSummary?_isSome : (v : ValueType) → v.ClosedIn m → (m.typeSummary? v).isSome = true
  | .literal _, _ => rfl
  | .identifier _, _ => rfl
  | .composite _ members, h => by
    refine isSome_bind (typeSummaries?_isSome members fun member hmember => ?_) fun _ => rfl
    rw [ValueType.closedIn_iff_leaves] at h ⊢
    exact fun leaf hleaf => h leaf (ValueType.mem_leavesList.2 ⟨member, hmember, hleaf⟩)
  | .set item _, h => isSome_bind (typeSummary?_isSome item h) fun _ => rfl
  | .option item, h => isSome_bind (typeSummary?_isSome item h) fun _ => rfl
  | .object id _, h =>
    isSome_bind (objectName?_isSome (h (.object id) List.mem_cons_self)) fun _ => rfl
  | .objectComposite kind id, h =>
    isSome_bind (compositeName?_isSome (h (.composite kind id) List.mem_cons_self)) fun _ => rfl

/-- A list of types that refer to entries only has summaries. -/
theorem typeSummaries?_isSome : (members : List ValueType) →
    (∀ member ∈ members, member.ClosedIn m) → (m.typeSummaries? members).isSome = true
  | [], _ => rfl
  | member :: rest, h =>
    isSome_bind (typeSummary?_isSome member (h member List.mem_cons_self)) fun _ =>
      isSome_bind (typeSummaries?_isSome rest fun v hv => h v (List.mem_cons_of_mem member hv))
        fun _ => rfl

end

theorem propertySummary?_isSome {p : Property} (h : p.type.ClosedIn m) :
    (m.propertySummary? p).isSome = true :=
  isSome_bind (typeSummary?_isSome p.type h) fun _ => rfl

/-- An object type that refers to entries only has a summary. -/
theorem objectSummary?_isSome {o : ObjectType} (h : o.Intact ValueType.ClosedIn m) :
    (m.objectSummary? o).isSome = true := by
  have hnames : ∀ ids ⊆ o.relatives, (m.objectNames? ids).isSome = true :=
    fun ids hids => objectNames?_isSome fun id hid => h.relatives id (hids hid)
  have hitems : (o.listItemType.mapM m.typeSummary?).isSome = true := by
    cases hv : o.listItemType with
    | none => rfl
    | some v =>
      rw [Option.mapM_some, Option.map_eq_map, Option.isSome_map]
      exact typeSummary?_isSome v (h.items v hv)
  refine isSome_bind (isSome_mapM fun p hp => propertySummary?_isSome (h.properties p hp))
    fun _ => ?_
  refine isSome_bind (hnames o.parents ?_) fun _ => isSome_bind (hnames o.ancestors ?_) fun _ => ?_
  · exact fun id hid => by simp [ObjectType.relatives, hid]
  · exact fun id hid => by simp [ObjectType.relatives, hid]
  refine isSome_bind (hnames o.children ?_) fun _ => isSome_bind (hnames o.descendants ?_) fun _ => ?_
  · exact fun id hid => by simp [ObjectType.relatives, hid]
  · exact fun id hid => by simp [ObjectType.relatives, hid]
  exact isSome_bind hitems fun _ => rfl

theorem compositeSummary?_isSome {c : ObjectComposite} (h : c.Intact m) :
    (m.compositeSummary? c).isSome = true :=
  isSome_bind (objectNames?_isSome h.members) fun _ => rfl

/-- A model whose entries refer to entries only has a summary. -/
theorem summary?_isSome (h : m.Intact ValueType.ClosedIn) : m.summary?.isSome = true := by
  refine isSome_bind (isSome_mapM fun o ho => objectSummary?_isSome (h.objects o ho)) fun _ => ?_
  refine isSome_bind (isSome_mapM fun c hc =>
    compositeSummary?_isSome (h.composites .intersection c hc)) fun _ => ?_
  exact isSome_bind (isSome_mapM fun c hc =>
    compositeSummary?_isSome (h.composites .union c hc)) fun _ => rfl

theorem closed_of_intact (h : m.Intact ValueType.ClosedIn) : m.Closed := by
  intro type htype
  rcases List.mem_append.1 htype with hobject | hcomposite
  · obtain ⟨o, ho, hmem⟩ := List.mem_flatMap.1 hobject
    have hintact := h.objects o ho
    simp only [ObjectType.targets, List.mem_append, List.mem_map, List.mem_flatMap,
      Option.mem_toList] at hmem
    rcases hmem with (⟨id, hid, rfl⟩ | ⟨p, hp, htarget⟩) | ⟨v, hv, htarget⟩
    · exact hintact.relatives id hid
    · exact hintact.properties p hp type htarget
    · exact hintact.items v hv type htarget
  · obtain ⟨c, hc, hmem⟩ := List.mem_flatMap.1 hcomposite
    obtain ⟨id, hid, rfl⟩ := List.mem_map.1 hmem
    obtain ⟨kind, hc⟩ := exists_kind_of_mem hc
    exact (h.composites kind c hc).members id hid

end TypeModel

end Summaries

/-! ## Resolution keeps models closed -/

namespace ValueType

variable {v : ValueType} {type : NodeType}

theorem targets_wrap (c : Cardinality) (item : ValueType) : (c.wrap item).targets = item.targets := by
  rw [targets, leaves_wrap, targets]

/-- A scalar type refers to nothing. -/
theorem targets_of_scalarType? {x : ScalarEvidence} (h : scalarType? x = some v) :
    v.targets = [] := by
  obtain ⟨rule, -, rfl⟩ := Option.map_eq_some_iff.1 h
  cases rule <;> rfl

/-- What members collapse to refers to nothing but what they refer to. -/
theorem mem_targets_of_collapse {kind : CompositeKind} {hasFixedValue : Bool}
    {members : List ValueType} (h : collapse kind hasFixedValue members = .ok v)
    (htype : type ∈ v.targets) : ∃ member ∈ members, type ∈ member.targets := by
  rcases collapse_eq_ok h with hleaves | hshortcut
  · rw [targets, hleaves, leavesList_eq_flatMap, List.filterMap_flatMap] at htype
    exact List.mem_flatMap.1 htype
  · rcases shortcut?_eq_some hshortcut with rfl | ⟨_, -, -, rfl⟩ <;> cases htype

/-- A reference refers to its entry, unless it is no more than an identifier. -/
theorem eq_of_mem_targets_referenceType {m : TypeModel} {context : Inherited} {target : NodeType}
    (h : target ∈ (m.referenceType context type).targets) : target = type := by
  cases type with
  | composite kind id => exact List.mem_singleton.1 h
  | object id =>
    simp only [TypeModel.referenceType] at h
    split at h
    · cases h
    · exact List.mem_singleton.1 h

end ValueType

/-- That a type refers to entries only is a law of types. -/
theorem typeLaw_closedIn (g : ShapesGraph) : TypeLaw g ValueType.ClosedIn where
  retains _ _ _ hretains h type htype := hretains.holds (h type htype)
  reference _ _ _ hheld target htarget :=
    ValueType.eq_of_mem_targets_referenceType htarget ▸ hheld
  scalar _ _ _ v _ hv target htarget := by
    rw [ValueType.targets_of_scalarType? hv] at htarget
    cases htarget
  collapse _ _ _ _ _ hmembers hv type htype := by
    obtain ⟨member, hmember, htype⟩ := ValueType.mem_targets_of_collapse hv htype
    exact hmembers member hmember type htype
  wrap _ c item h := by
    rw [ValueType.ClosedIn, ValueType.targets_wrap]
    exact h

namespace Resolver

open ShapesGraph

variable {g : ShapesGraph}

/-- Outside of all resolutions every composite has been filled. -/
theorem Tended.two_le_members {settings : Settings} {V : ValueType → TypeModel → Prop}
    {E : ResolutionError → Prop} {s : State} (h : Tended g settings V E [] s)
    {kind : CompositeKind} {c : ObjectComposite} (hc : c ∈ s.model.composites kind) :
    2 ≤ c.members.length := by
  obtain ⟨id, hid⟩ := TypeModel.exists_composite?_of_mem hc
  have hlisted := h.sound.listed _ _ (TypeModel.owner?_of_composite? hid)
  obtain ⟨c', hc', htwo⟩ := h.intact.filled _ kind id hlisted
  obtain rfl : c = c' := Option.some.inj (hid.symm.trans hc')
  exact htwo

/-- After every sequence of calls, whether they fail or not, every reference leads to an
entry, and every composite has two members or more, each once; so the model passes the
check and has a summary.  The same is true of the model of a graph that is resolved as
a whole, and when this fails, it is not for the model. -/
theorem references_intact (settings : Settings) (calls : List (Call g)) :
    let m := (afterCalls settings calls).model
    (m.Closed ∧ (∀ kind, ∀ c ∈ m.composites kind, 2 ≤ c.members.length ∧ c.members.Nodup) ∧
      m.validate = .ok () ∧ m.summary?.isSome = true) ∧
    (∀ m, (resolveGraph g settings).1 = .ok m → m.Closed ∧ m.summary?.isSome = true) ∧
    ∀ cause, (resolveGraph g settings).1 ≠ .error (.model cause) := by
  intro m
  have hV : TypeLaw g ValueType.ClosedIn := typeLaw_closedIn g
  refine ⟨?_, ?_, ?_⟩
  · have h : Tended g settings ValueType.ClosedIn (fun _ => True) [] (afterCalls settings calls) :=
      tended_afterCalls hV (errorLaw_any g) calls
    refine ⟨TypeModel.closed_of_intact h.intact.model, fun kind c hc => ?_, ?_,
      TypeModel.summary?_isSome h.intact.model⟩
    · exact ⟨h.two_le_members hc, (h.intact.model.composites kind c hc).distinct⟩
    · refine TypeModel.validate_eq_ok.2 fun c hc => ?_
      obtain ⟨kind, hc⟩ := TypeModel.exists_kind_of_mem hc
      exact h.two_le_members hc
  · intro m hm
    have hspec : Ensures (Tended g settings ValueType.ClosedIn (fun _ => True) [])
        (resolveAll g settings) _ _ := resolveAll_upkeep hV (errorLaw_any g)
    cases hrun : outcome (resolveAll g settings) .empty with
    | mk result t =>
      rw [resolveGraph, hrun] at hm
      obtain rfl : result = .ok m := hm
      obtain ⟨rfl, h⟩ := hspec.ok tended_empty hrun
      exact ⟨TypeModel.closed_of_intact h.intact.model, TypeModel.summary?_isSome h.intact.model⟩
  · intro cause hfail
    cases hrun : outcome (resolveAll g settings) .empty with
    | mk result t =>
      rw [resolveGraph, hrun] at hfail
      obtain rfl : result = .error (.model cause) := hfail
      cases (resolveAll_fault g settings).error rfl hrun

end Resolver

end ShaclTypes
