import ShaclTypes.Proofs.Building
set_option autoImplicit false

/-!
# Resolving keeps states sound

Resolving a node shape in a sound state leaves a sound state that extends it.  If
the node shape resolves, it is in the ledger afterwards, and if it does not, the
model and the resolved node shapes are what they were (`nodeShape_sound`).  The
proof is by induction on what can still be entered: while a node shape is built,
all that it leads to is resolved with its place in the scope (`Filling`), and a
failure goes back to before the place was taken.
-/

namespace ShaclTypes

open ShaclTypes.Rdf

namespace Resolver

open ShapesGraph

variable {g : ShapesGraph} {settings : Settings} {n : Namer} {admitted : g.Member → Prop}
variable {places : List (Term × NodeType)} {s t : State} {shape : g.Member}

/-! ## Taking a place -/

/-- A shape that is neither under resolution nor resolved is not in the ledger. -/
theorem not_mem_ledger {identifier : Term} (hplace : places.lookup identifier = none)
    (hresolved : s.resolved? identifier = none) :
    identifier ∉ (ledger places s).map Prod.fst := by
  have hlookup : (ledger places s).lookup identifier = none := by
    rw [ledger, List.lookup_append, hplace]
    exact hresolved
  intro hmem
  obtain ⟨p, hp, rfl⟩ := List.mem_map.1 hmem
  have := List.lookup_isSome_iff.2 ⟨p, hp, beq_self_eq_true _⟩
  rw [hlookup] at this
  cases this

/-- While a place is filled, the state is sound with the place in the ledger, and
has all that there was before the place was taken. -/
structure Filling (n : Namer) (admitted : g.Member → Prop) (places : List (Term × NodeType))
    (s : State) (identifier : Term) (place : NodeType) (t : State) : Prop where
  sound : Sound n admitted ((identifier, place) :: places) t
  grown : s.Extends t

theorem ensures_addObject (hs : Sound n admitted places s) (hadmitted : admitted shape)
    (hfresh : shape.1.identifier ∉ (ledger places s).map Prod.fst)
    (hobject : shape.1.constraints.nodeComposition? = none)
    (failed : ResolutionError → State → Prop) :
    Ensures (fun t => t = s) (addObject (n.objectType shape.1))
      (fun id t =>
        Filling n admitted places s shape.1.identifier (.object id) t ∧
          s.model.objects.length ≤ id.index)
      failed := by
  rintro t rfl
  have hgrows := t.model.grows_addObject (n.objectType shape.1)
  refine ⟨⟨hs.opened hadmitted hfresh hgrows ⟨hobject, ?_⟩ ?_, hgrows, [], rfl, by simp⟩, ?_⟩
  · rw [TypeModel.outline_addObject]
    simp [TypeModel.object?, TypeModel.addObject, TypeModel.outline, TypeModel.nextObject]
    rfl
  · exact fun type owner => TypeModel.owner?_addObject
  · exact Nat.le_refl _

theorem ensures_addComposite {kind : CompositeKind} {members : List Term}
    (hs : Sound n admitted places s) (hadmitted : admitted shape)
    (hfresh : shape.1.identifier ∉ (ledger places s).map Prod.fst)
    (hcomposite : shape.1.constraints.nodeComposition? = some (kind, members))
    (failed : ResolutionError → State → Prop) :
    Ensures (fun t => t = s) (addComposite kind (n.objectComposite shape.1))
      (fun id t =>
        Filling n admitted places s shape.1.identifier (.composite kind id) t ∧
          (s.model.composites kind).length ≤ id.index)
      failed := by
  rintro t rfl
  have hgrows := t.model.grows_addComposite kind (n.objectComposite shape.1)
  refine ⟨⟨hs.opened hadmitted hfresh hgrows ⟨⟨members, hcomposite⟩, ?_⟩ ?_, hgrows, [], rfl,
    by simp⟩, ?_⟩
  · rw [TypeModel.outline_addComposite]
    cases kind <;>
      simp [TypeModel.composite?, TypeModel.addComposite, TypeModel.outline,
        TypeModel.nextComposite, TypeModel.composites] <;> rfl
  · exact fun type owner => TypeModel.owner?_addComposite
  · exact Nat.le_refl _

/-! ## Filling it -/

namespace Filling

variable {identifier : Term} {place : NodeType}

theorem log (h : Filling n admitted places s identifier place t) (e : Event) :
    Filling n admitted places s identifier place (t.log e) :=
  ⟨h.sound.log e, h.grown.log e⟩

theorem modifyObject {id : ObjectId} {f : ObjectType → ObjectType}
    (h : Filling n admitted places s identifier (.object id) t)
    (hid : s.model.objects.length ≤ id.index) (hf : ∀ o, (f o).unfilled = o.unfilled) :
    Filling n admitted places s identifier (.object id)
      { t with model := t.model.modifyObject id f } :=
  ⟨h.sound.of_outline_eq rfl (TypeModel.outline_modifyObject _ _ hf),
    h.grown.model.modifyObject hid, h.grown.resolved⟩

theorem fillComposite {kind : CompositeKind} {id : CompositeId} {ids : List ObjectId}
    {model : TypeModel} (h : Filling n admitted places s identifier (.composite kind id) t)
    (hid : (s.model.composites kind).length ≤ id.index)
    (hfill : t.model.fillComposite kind id ids = .ok model) :
    Filling n admitted places s identifier (.composite kind id) { t with model := model } := by
  refine ⟨h.sound.of_outline_eq rfl (TypeModel.outline_fillComposite hfill), ?_, h.grown.resolved⟩
  rcases TypeModel.fillComposite_eq hfill with ⟨-, rfl⟩ | ⟨c, -, -, rfl⟩
  · exact h.grown.model
  · exact h.grown.model.setComposite hid

/-- A step that keeps what is sound and extends where it starts goes on filling. -/
theorem keeps {α : Type} {step : Resolver α}
    (hstep : ∀ t, Sound n admitted ((identifier, place) :: places) t →
      Ensures (fun u => u = t) step
        (fun _ u => Sound n admitted ((identifier, place) :: places) u ∧ t.Extends u)
        (fun _ u => t.SameTypes u)) :
    Keeps (Filling n admitted places s identifier place) step := by
  refine Ensures.of_forall fun t ht => (hstep t ht.sound).mono (fun _ h => h) ?_ ?_
  · exact fun _ u hu => ⟨hu.1, ht.grown.trans hu.2⟩
  · exact fun _ u hu => ⟨ht.sound.of_sameTypes hu, ht.grown.trans hu.extends⟩

end Filling

/-! ## Building -/

/-- Building a node shape leaves a sound state with the shape in the ledger, or
fails; in either case nothing that was there has changed. -/
theorem ensures_build (hs : Sound n admitted places s) (hadmitted : admitted shape)
    (hfresh : shape.1.identifier ∉ (ledger places s).map Prod.fst)
    {resolve : NodeType → NodeResolver g}
    (hresolve : ∀ place r, Found r →
      Keeps (Filling n admitted places s shape.1.identifier place) (resolve place r)) :
    Ensures (fun t => t = s)
      (build n shape.1 resolve fun place => inlineType (resolve place) [])
      (fun place t => Filling n admitted places s shape.1.identifier place t ∧
        s.model.extent.holds place = false)
      (fun _ t => s.Extends t) := by
  unfold build
  split
  · next kind members hcomposite =>
    dsimp only
    split
    · refine ensures_throw_bind ?_
      rintro t rfl
      exact .refl t
    · refine (ensures_addComposite hs hadmitted hfresh hcomposite _).bind fun id => ?_
      refine Ensures.of_fact fun hid => ?_
      have hfill : Keeps (Filling n admitted places s shape.1.identifier (.composite kind id))
          (fillComposite shape.1 kind id members (resolve (.composite kind id))) :=
        keeps_fillComposite (fun _ e h => h.log e)
          (fun _ _ r hr => hresolve _ r (found_of_member? hr))
          (fun _ _ _ h hfill => h.fillComposite hid hfill)
      refine (hfill.mono (fun _ h => h) (fun _ _ h => h) (fun _ _ h => h.grown)).bind fun _ => ?_
      exact ensures_pure fun t ht => ⟨ht, TypeModel.not_holds_composite hid⟩
  · next hobject =>
    refine (ensures_addObject hs hadmitted hfresh hobject _).bind fun id => ?_
    refine Ensures.of_fact fun hid => ?_
    have hlog : ∀ t e, Filling n admitted places s shape.1.identifier (.object id) t →
        Filling n admitted places s shape.1.identifier (.object id) (t.log e) := fun _ e h => h.log e
    have hfill : Keeps (Filling n admitted places s shape.1.identifier (.object id))
        (fillObject n shape.1 id (resolve (.object id)) (inlineType (resolve (.object id)) [])) :=
      keeps_fillObject hlog (fun _ _ hf h => h.modifyObject hid hf)
        (fun _ => keeps_resolveRelatives fun r hr => hresolve _ r (found_of_mem_relatives hr))
        (fun _ _ _ _ => keeps_property (keeps_inlineType (hresolve _) hlog _ _ _))
    refine (hfill.mono (fun _ h => h) (fun _ _ h => h) (fun _ _ h => h.grown)).bind fun _ => ?_
    exact ensures_pure fun t ht => ⟨ht, TypeModel.not_holds_object hid⟩

/-! ## Resolving -/

/-- Resolving a node shape in a sound state leaves a sound state.  What was there
is still there; if the node shape resolves, it is in the ledger, and if not,
nothing has been added. -/
theorem nodeShape_sound (hfound : ∀ r : g.Member, Found r → admitted r) (scope : Scope)
    (shape : g.Member) (hadmitted : admitted shape) (s : State)
    (hs : Sound (namer g settings) admitted scope.places s) :
    Ensures (fun t => t = s) (nodeShape g settings scope shape)
      (fun type t => Sound (namer g settings) admitted scope.places t ∧ s.Extends t ∧
        (shape.1.identifier, type) ∈ ledger scope.places t)
      (fun _ t => s.SameTypes t) := by
  refine nodeShape_induction settings
    (fun scope shape s => admitted shape ∧ Sound (namer g settings) admitted scope.places s)
    (fun scope shape s type t => Sound (namer g settings) admitted scope.places t ∧ s.Extends t ∧
      (shape.1.identifier, type) ∈ ledger scope.places t)
    (fun _ _ s _ t => s.SameTypes t) ?_ ?_ ?_ scope shape s ⟨hadmitted, hs⟩
  · rintro scope shape s place ⟨-, hs⟩ hplace
    exact ⟨hs.log _, (State.Extends.refl s).log _, List.mem_append_left _ (mem_of_lookup hplace)⟩
  · rintro scope shape s type ⟨-, hs⟩ htype
    exact ⟨hs.log _, (State.Extends.refl s).log _, List.mem_append_right _ (mem_of_lookup htype)⟩
  · rintro scope shape s ⟨hadmitted, hs⟩ hplace hresolved ih
    have hheld : ∀ p ∈ s.resolved, s.model.extent.holds p.2 = true :=
      fun p hp => hs.holds (List.mem_append_right _ hp)
    have hinner : ∀ place r, Found r →
        Keeps (Filling (namer g settings) admitted scope.places
            (s.log (.resolving shape.1.identifier)) shape.1.identifier place)
          (nodeShape g settings (scope.enter shape.1.identifier place) r) := by
      intro place r hr
      refine Filling.keeps fun t ht => ?_
      exact (ih place r t ⟨hfound r hr, ht⟩).mono (fun _ h => h) (fun _ _ h => ⟨h.1, h.2.1⟩)
        (fun _ _ h => h)
    refine (ensures_build (hs.log _) hadmitted (not_mem_ledger hplace hresolved) hinner).mono
      (fun _ h => h) ?_ ?_
    · intro type t hend
      obtain ⟨hfilled, hbeyond⟩ := hend
      refine ⟨hfilled.sound.record, ⟨hfilled.grown.model, ?_⟩, ?_⟩
      · obtain ⟨new, hnew, hfresh⟩ := hfilled.grown.resolved
        refine ⟨(shape.1.identifier, type) :: new, by simp [State.record, hnew], ?_⟩
        intro p hp
        rcases List.mem_cons.1 hp with rfl | hp
        · exact hbeyond
        · exact hfresh p hp
      · exact List.mem_append_right _ List.mem_cons_self
    · intro _ t ht
      have hback := ht.rollback hheld
      exact ⟨hback.model, hback.resolved⟩

end Resolver

end ShaclTypes
