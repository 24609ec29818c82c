import ShaclTypes.Proofs.Account
import ShaclTypes.Proofs.Assembly
set_option autoImplicit false

/-!
# What typing gives

Typing assembles types (`Assembled`), whichever way node shapes are resolved, provided
that the way keeps to an account.  What the account tells of references (`TypesBy`) is
then true of every reference that a type is assembled from (`runs_inlineType`).

The errors of typing are those of its steps, wrapped once for each composite around
them, and an inline shape that refers to itself.  The latter arises only for a shape
that can be reached from itself through members that are typed in place
(`ReachesItself`): the trail of inline shapes is such a walk.
-/

namespace ShaclTypes

open ShaclTypes.Rdf

/-! ## Errors -/

/-- The inline shape that refers to itself, if that is what the error comes down to. -/
def ResolutionError.selfReference? : ResolutionError → Option Term
  | selfReference shape => some shape
  | memberFailed _ _ cause => cause.selfReference?
  | tooFewDeclared _ _ | tooFewResolved _ _ | unsupportedPath _ _ | missingPath _ | undetermined _
  | unknownShape _ | unresolvedClass _ _ | model _ | shapes _ => none

/-- A property of errors that only a self reference could lack: all other errors have
it, the failure of a member has it from its cause, and a self reference has it if the
shape does reach itself. -/
structure ErrorLaw (g : ShapesGraph) (E : ResolutionError → Prop) : Prop where
  other : ∀ e, e.selfReference? = none → E e
  member : ∀ shape member e, E e → E (.memberFailed shape member e)
  selfReference : ∀ t, g.ReachesItself t → E (.selfReference t)

theorem errorLaw_any (g : ShapesGraph) : ErrorLaw g fun _ => True :=
  ⟨fun _ _ => trivial, fun _ _ _ _ => trivial, fun _ _ => trivial⟩

namespace Resolver

open ShapesGraph Account

theorem outcome_reference (context : Inherited) (type : NodeType) (s : State) :
    outcome (reference context type) s = (.ok (s.model.referenceType context type), s) := by
  cases type with
  | composite kind id => rfl
  | object id =>
    unfold reference TypeModel.referenceType
    rw [outcome_bind, outcome_get]
    cases h : (s.model.object? id).filter ObjectType.isExternal <;> simp only [h, outcome_pure]

/-! ## Typing -/

/-- An account by which node shapes are resolved and referred to.  `node` is what is known
of the entries that are referred to, and `refers` of the references to them. -/
structure Account.TypesBy (x : Account) (g : ShapesGraph) (node : NodeType → State → Prop)
    (refers : ValueType → State → Prop) : Prop extends Coherent x where
  errors : ErrorLaw g x.error
  stable : x.Stable refers
  reference : ∀ s context type, x.kept s → node type s →
    refers (s.model.referenceType context type) s

/-- The type is assembled from references of which something is known in a state. -/
def AssembledFrom (g : ShapesGraph) (refers : ValueType → State → Prop) (inherited : Inherited)
    (shape : g.Member) (v : ValueType) (s : State) : Prop :=
  ∃ introductions, Assembled g inherited shape v introductions ∧
    ∀ i ∈ introductions, refers i.type s

/-- What a part of a composite is under the settings of the composite. -/
def Made {g : ShapesGraph} (refers : ValueType → State → Prop) (context : Inherited)
    (s : State) : Part g → Prop
  | .reference type => context.Refers type ∧ refers type s
  | .inline shape type introductions =>
    Assembled g context shape type introductions ∧ ∀ i ∈ introductions, refers i.type s

/-- The types are those of parts under the settings, one part for each listed member that
is typed in place and else references. -/
def HasParts (g : ShapesGraph) (refers : ValueType → State → Prop) (context : Inherited)
    (listed : List Term) (types : List ValueType) (s : State) : Prop :=
  ∃ parts : List (Part g), parts.map Part.type = types ∧
    parts.filterMap Part.shape? = listed.filterMap g.inlined? ∧
      ∀ part ∈ parts, Made refers context s part

/-- The type is that of a part, which is an inline shape if the member is typed in place. -/
def IsPart (g : ShapesGraph) (refers : ValueType → State → Prop) (context : Inherited)
    (member : Term) (t : ValueType) (s : State) : Prop :=
  ∃ part : Part g, part.type = t ∧ part.shape? = g.inlined? member ∧ Made refers context s part

section Parts

variable {g : ShapesGraph} {refers : ValueType → State → Prop} {context : Inherited} {s : State}

/-- References are parts of which none is typed in place. -/
theorem hasParts_of_refers {types : List ValueType}
    (h : ∀ t ∈ types, context.Refers t ∧ refers t s) : HasParts g refers context [] types s := by
  refine ⟨types.map .reference, ?_, ?_, List.forall_mem_map.2 h⟩
  · rw [List.map_map]
    exact List.map_id types
  · rw [List.filterMap_map]
    exact List.filterMap_eq_nil_iff.2 fun _ _ => rfl

theorem hasParts_of_forall₂ {listed : List Term} {types : List ValueType}
    (h : List.Forall₂ (fun member t => IsPart g refers context member t s) listed types) :
    HasParts g refers context listed types s := by
  induction h with
  | nil => exact ⟨[], rfl, rfl, fun _ hpart => nomatch hpart⟩
  | cons hpart _ ih =>
    obtain ⟨part, rfl, hshape, hmade⟩ := hpart
    obtain ⟨parts, rfl, hshapes, hparts⟩ := ih
    refine ⟨part :: parts, rfl, ?_, List.forall_mem_cons.2 ⟨hmade, hparts⟩⟩
    rw [List.filterMap_cons, List.filterMap_cons, hshape, hshapes]

theorem stable_isPart {x : Account} (hstable : x.Stable refers) {member : Term} :
    x.Stable (IsPart g refers context member) := by
  rintro t s u hpasses ⟨part, htype, hshape, hmade⟩
  refine ⟨part, htype, hshape, ?_⟩
  cases part with
  | reference type => exact ⟨hmade.1, hstable type s u hpasses hmade.2⟩
  | inline shape type is => exact ⟨hmade.1, fun i hi => hstable i.type s u hpasses (hmade.2 i hi)⟩

end Parts

section Typing

variable {g : ShapesGraph} {x : Account} {node : NodeType → State → Prop}
variable {refers : ValueType → State → Prop} {resolve : NodeResolver g} {typer : ValueTyper g}
variable {shape : g.Member} {context : Inherited} {s : State}

variable (hx : x.TypesBy g node refers)
include hx

theorem runs_reference {type : NodeType} (hs : x.kept s) (h : node type s) :
    x.Runs (fun v t => context.Refers v ∧ refers v t) s (reference context type) := by
  rintro t rfl
  rw [outcome_reference]
  exact ⟨hs, hx.refl t, ⟨t.model, type, rfl⟩, hx.reference t context type hs h⟩

theorem stable_refers : x.Stable fun v t => context.Refers v ∧ refers v t :=
  fun v s t hpasses h => ⟨h.1, hx.stable v s t hpasses h.2⟩

variable (hresolve : ∀ r, Found r → ∀ s, x.kept s → x.Runs node s (resolve r))
include hresolve

/-- A node shape that is resolved is referred to. -/
theorem runs_resolve_reference {r : g.Member} (hr : Found r) (hs : x.kept s) :
    x.Runs (fun v t => context.Refers v ∧ refers v t) s (resolve r >>= reference context) :=
  (hresolve r hr s hs).bind hx.toCoherent fun _ _ ht _ htype => runs_reference hx ht htype

theorem runs_nodeReference {n : Term} (hs : x.kept s) :
    x.Runs (fun v t => context.Refers v ∧ refers v t) s (nodeReference context resolve n) := by
  unfold nodeReference requireMember
  cases hmember : g.member? n with
  | none => exact runs_throw hx.toCoherent hs (hx.errors.other _ rfl)
  | some r => exact runs_resolve_reference hx hresolve (found_of_member? hmember) hs

/-- A member is a part: one that is typed in place, or else a reference. -/
theorem runs_memberType {member : Term} (hs : x.kept s)
    (htyper : ∀ r, g.member? member = some r → g.isDeclared member = false →
      r.1.constraints.properties = [] →
      x.Runs (AssembledFrom g refers context r) s (typer context r)) :
    x.Runs (IsPart g refers context member) s (memberType context resolve typer member) := by
  unfold memberType requireMember
  cases hmember : g.member? member with
  | none => exact runs_throw hx.toCoherent hs (hx.errors.other _ rfl)
  | some r =>
    simp only [pure_bind]
    split
    · next hreferred =>
      have hfound := found_of_member? hmember
      refine (runs_resolve_reference hx hresolve hfound hs).mono fun v t _ hv => ?_
      refine ⟨.reference v, rfl, ?_, hv⟩
      simp only [Part.shape?, inlined?, hmember, Option.filter_some, hreferred, Bool.not_true,
        Bool.false_eq_true, if_false]
    · next hinline =>
      have hmembers : g.inlined? member = some r := by
        simp only [inlined?, hmember, Option.filter_some, hinline, Bool.not_false, if_true]
      obtain ⟨-, hdeclared, hproperties⟩ := inlined?_eq_some.1 hmembers
      refine (htyper r hmember hdeclared hproperties).mono fun v t _ hv => ?_
      obtain ⟨is, hv⟩ := hv
      exact ⟨.inline r v is, rfl, hmembers.symm, hv⟩

theorem runs_classType? {cls : Iri} (hs : x.kept s) :
    x.Runs (fun v? t => ∀ v ∈ v?, context.Refers v ∧ refers v t) s
      (classType? shape.1 context resolve cls) := by
  have hnone : ∀ {event : Event} {t : State}, x.kept t → event.Reports x.error →
      x.Runs (fun v? t => ∀ v ∈ v?, context.Refers v ∧ refers v t) t
        (report event >>= fun _ => pure none) :=
    fun ht h => (runs_report hx.toCoherent ht h).bind hx.toCoherent fun _ u hu _ _ =>
      runs_pure hx.toCoherent hu fun _ hv => nomatch hv
  unfold classType?
  split
  · exact hnone hs (Event.reports_of_error?_eq_none rfl)
  · next r hr =>
    refine (hresolve r (found_of_nodeShape? hr) s hs).attempt.bind hx.toCoherent ?_
    intro result t ht _ hresult
    cases result with
    | ok type =>
      refine (runs_reference hx ht hresult).bind hx.toCoherent fun v u hu _ hv => ?_
      refine runs_pure hx.toCoherent hu fun v' hv' => ?_
      exact Option.some.inj hv' ▸ hv
    | error e => exact hnone ht fun cause hcause => Option.some.inj hcause ▸ hresult

/-- The types of what a composition lists are the types of parts. -/
theorem runs_memberTypes {composition : Composition} (hs : x.kept s)
    (htyper : ∀ member ∈ composition.listed, ∀ r, g.member? member = some r →
      g.isDeclared member = false → r.1.constraints.properties = [] →
      ∀ t, x.kept t → x.Runs (AssembledFrom g refers context r) t (typer context r)) :
    x.Runs (HasParts g refers context composition.listed) s
      (memberTypes shape.1 context resolve typer composition) := by
  have hcoherent := hx.toCoherent
  have hlisted : ∀ members, composition.listed = members →
      x.Runs (HasParts g refers context members) s
        (members.mapM fun member =>
          onBehalf shape.1 member (memberType context resolve typer member)) := by
    rintro members rfl
    refine (runs_mapM hcoherent (fun member _ => stable_isPart hx.stable) hs
      fun member hmember t ht => ?_).mono fun _ _ _ => hasParts_of_forall₂
    refine (runs_memberType hx hresolve ht fun r hr hdeclared hproperties => ?_).onBehalf
      fun e => hx.errors.member _ member e
    exact htyper member hmember r hr hdeclared hproperties t ht
  cases composition with
  | conjunction members => exact hlisted members rfl
  | disjunction members => exact hlisted members rfl
  | nodes nodes =>
    refine (runs_mapM_forall hcoherent (stable_refers hx) hs fun n _ t ht => ?_).mono
      fun _ _ _ => hasParts_of_refers
    exact (runs_nodeReference hx hresolve ht).onBehalf fun e => hx.errors.member _ n e
  | classes classes =>
    have hstable : x.Stable fun (v? : Option ValueType) t =>
        ∀ v ∈ v?, context.Refers v ∧ refers v t :=
      fun v? t u hpasses h v hv => stable_refers hx v t u hpasses (h v hv)
    refine (runs_mapM_forall hcoherent hstable hs fun cls _ t ht =>
      runs_classType? hx hresolve ht).bind hcoherent fun types t ht _ htypes => ?_
    dsimp only
    split
    · exact runs_throw_bind hcoherent ht (hx.errors.other _ rfl)
    · refine runs_pure hcoherent ht (hasParts_of_refers fun v hv => ?_)
      obtain ⟨v?, hv?, rfl⟩ := List.mem_filterMap.1 hv
      exact htypes _ hv? v rfl

/-- The type of one value, with its cardinality, is assembled under the settings around
the shape. -/
theorem runs_itemType {inherited : Inherited} (hs : x.kept s)
    (htyper : ∀ r, g.Inlines shape r → ∀ t, x.kept t →
      x.Runs (AssembledFrom g refers (inherited.within shape.1) r) t
        (typer (inherited.within shape.1) r)) :
    x.Runs (fun item => AssembledFrom g refers inherited shape
        ((inherited.cardinality shape.1).wrap item)) s
      (itemType shape.1 (inherited.within shape.1) resolve typer) := by
  have hcoherent := hx.toCoherent
  unfold itemType
  split
  · next composition hcomposition =>
    refine (runs_memberTypes hx hresolve hs fun member hmember r hr hdeclared hproperties =>
      htyper r ⟨composition, hcomposition, member, hmember, hr, hdeclared, hproperties⟩).bind
      hcoherent ?_
    rintro _ t ht - ⟨parts, rfl, hlisted, hparts⟩
    refine runs_ofExcept hcoherent ht (fun item hitem => ?_) fun e _ => hx.errors.other _ rfl
    refine ⟨_, .composed hcomposition hlisted (fun type hpart => (hparts _ hpart).1)
      (fun r type is hpart => (hparts _ hpart).1) hitem, fun i hi => ?_⟩
    obtain ⟨part, hpart, hi⟩ := List.mem_flatMap.1 hi
    cases part with
    | reference type => exact List.mem_singleton.1 hi ▸ (hparts _ hpart).2
    | inline r type is =>
      obtain ⟨j, hj, rfl⟩ := List.mem_map.1 hi
      exact (hparts _ hpart).2 j hj
  · next hcomposition =>
    split
    · next item hitem =>
      exact runs_pure hcoherent hs ⟨[], .scalar hcomposition hitem, fun _ hi => nomatch hi⟩
    · exact runs_throw hcoherent hs (hx.errors.other _ rfl)

/-- Every type that a shape is given is assembled, whatever the shape inherits.  The trail
leads to the shape, unless the account admits self references anyway. -/
theorem runs_inlineType {trail : List Term} {inherited : Inherited}
    (htrail : g.LeadsTo trail shape ∨ ∀ t, x.error (.selfReference t)) (hs : x.kept s) :
    x.Runs (AssembledFrom g refers inherited shape) s
      (inlineType resolve trail inherited shape) := by
  induction trail, inherited, shape using inlineType.induct generalizing s with
  | case1 trail inherited shape hmem =>
    rw [inlineType, if_pos hmem]
    refine runs_throw hx.toCoherent hs (htrail.elim (fun hleads => ?_) fun hany => hany _)
    exact hx.errors.selfReference _ (hleads.reachesItself hmem)
  | case2 trail inherited shape fresh ih =>
    rw [inlineType, if_neg fresh]
    exact (runs_itemType hx hresolve hs fun r hr t ht =>
      ih _ _ (htrail.imp_left fun hleads => hleads.walk hr) ht).bind
      hx.toCoherent fun item t ht _ hitem => runs_pure hx.toCoherent ht hitem

/-- The type of every property is assembled without settings around its shape. -/
theorem runs_property {n : Namer} {trail : List Term}
    (htrail : g.LeadsTo trail shape ∨ ∀ t, x.error (.selfReference t)) (hs : x.kept s) :
    x.Runs (fun p => AssembledFrom g refers {} shape p.type) s
      (property n (inlineType resolve trail) shape) := by
  have hcoherent := hx.toCoherent
  unfold property
  split
  · exact runs_throw hcoherent hs (hx.errors.other _ rfl)
  · split
    · exact runs_throw hcoherent hs (hx.errors.other _ rfl)
    · exact (runs_inlineType hx hresolve htrail hs).bind hcoherent
        fun v t ht _ hv => runs_pure hcoherent ht hv

end Typing

/-! ## What typing keeps -/

section Keeping

variable {g : ShapesGraph} {I : State → Prop} {resolve : NodeResolver g}

/-- The account that tells only what is kept. -/
def Account.keeping (I : State → Prop) : Account := ⟨I, fun _ _ => True, fun _ => True⟩

theorem coherent_keeping (hlog : ∀ s event, I s → I (s.log event)) : (keeping I).Coherent :=
  ⟨fun _ => trivial, fun _ _ _ _ _ => trivial, fun s event _ hs => ⟨hlog s event hs, trivial⟩⟩

theorem runs_keeping_iff {α : Type} {step : Resolver α} :
    (∀ s, I s → (keeping I).Runs (fun _ _ => True) s step) ↔ Keeps I step := by
  constructor
  · intro h
    have hensures : Ensures (keeping I).kept step (fun _ t => (keeping I).kept t ∧ True)
        (fun _ t => (keeping I).kept t ∧ True) := Runs.ensures h
    exact hensures.mono (fun _ hs => hs) (fun _ _ ht => ht.1) fun _ _ ht => ht.1
  · intro h s hs
    refine Ensures.mono h (fun t ht => ht ▸ hs) ?_ ?_
    · exact fun _ _ h => ⟨h, trivial, trivial⟩
    · exact fun _ _ h => ⟨h, trivial, trivial⟩

theorem typesBy_keeping (hlog : ∀ s event, I s → I (s.log event)) :
    (keeping I).TypesBy g (fun _ _ => True) fun _ _ => True where
  toCoherent := coherent_keeping hlog
  errors := errorLaw_any g
  stable _ _ _ _ _ := trivial
  reference _ _ _ _ _ := trivial

/-- Typing changes a state in no other way than resolving node shapes does. -/
theorem keeps_inlineType (hresolve : ∀ r, Found r → Keeps I (resolve r))
    (hlog : ∀ s event, I s → I (s.log event)) (trail : List Term) (inherited : Inherited)
    (shape : g.Member) : Keeps I (inlineType resolve trail inherited shape) := by
  have hkept : ∀ r, Found r → ∀ s, I s → (keeping I).Runs (fun _ _ => True) s (resolve r) :=
    fun r hr => runs_keeping_iff.2 (hresolve r hr)
  refine runs_keeping_iff.1 fun s hs => ?_
  exact (runs_inlineType (typesBy_keeping hlog) hkept (.inr fun _ => trivial) hs).mono
    fun _ _ _ _ => trivial

/-- Every step keeps what is always true. -/
theorem keeps_true {α : Type} (step : Resolver α) : Keeps (fun _ => True) step := by
  intro s _
  cases outcome step s with
  | mk result t => cases result <;> trivial

/-- In whatever way node shapes are resolved and whatever trail there is, the type of a
property is assembled. -/
theorem assembled_of_property {n : Namer} {trail : List Term} {shape : g.Member} {s t : State}
    {p : Property} (hrun : outcome (property n (inlineType resolve trail) shape) s = (.ok p, t)) :
    ∃ introductions, Assembled g {} shape p.type introductions := by
  have hx : (keeping fun _ => True).TypesBy g (fun _ _ => True) fun _ _ => True :=
    typesBy_keeping fun _ _ _ => trivial
  have hresolve : ∀ r, Found r → ∀ s, True → (keeping fun _ => True).Runs (fun _ _ => True) s
      (resolve r) := fun r _ => runs_keeping_iff.2 (keeps_true (resolve r))
  have hruns : (keeping fun _ => True).Runs
      (fun p => AssembledFrom g (fun _ _ => True) {} shape p.type) s
      (property n (inlineType resolve trail) shape) :=
    runs_property hx hresolve (.inr fun _ => trivial) trivial
  obtain ⟨-, -, introductions, h, -⟩ := hruns.ok rfl hrun
  exact ⟨introductions, h⟩

end Keeping

end Resolver

end ShaclTypes
