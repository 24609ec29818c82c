import ShaclTypes.Proofs.Typing
import ShaclTypes.Resolution.Threaded
set_option autoImplicit false

/-!
# Two resolutions in lockstep

Two steps go in lockstep if, from states in relation, they end alike: both with the same
error or both with results in relation, and again in states in relation.  There is one
rule for each way of making a step, and then one lemma for each function of typing and of
filling, up to where entries are made.

The functions ask little of a state, and change it in few ways.  What a relation has to
stand for that is told by the clauses of `Parallel`, one for each.
-/

namespace ShaclTypes

open ShaclTypes.Rdf

namespace Resolver

variable {α α' β β' γ ε : Type} {R : State → State → Prop}
variable {V : α → α' → Prop} {W : β → β' → Prop} {U : α → α → Prop}

/-- Both answers are errors, and the same one, or both are results in relation. -/
def Alike (V : α → α' → Prop) : Except ε α → Except ε α' → Prop
  | .ok a, .ok a' => V a a'
  | .error e, .error e' => e = e'
  | _, _ => False

/-- From states in relation the two steps end alike, in states in relation. -/
def Lockstep (R : State → State → Prop) (V : α → α' → Prop) (step : Resolver α)
    (step' : Resolver α') : Prop :=
  ∀ s t, R s t → Alike V (outcome step s).1 (outcome step' t).1 ∧
    R (outcome step s).2 (outcome step' t).2

/-! ## Rules -/

section Rules

variable {step : Resolver α} {step' : Resolver α'}

theorem Alike.cases {answer : Except ε α} {answer' : Except ε α'} (h : Alike V answer answer') :
    (∃ a a', answer = .ok a ∧ answer' = .ok a' ∧ V a a') ∨
      ∃ e, answer = .error e ∧ answer' = .error e := by
  cases answer with
  | ok a =>
    cases answer' with
    | ok a' => exact .inl ⟨a, a', rfl, rfl, h⟩
    | error e' => exact h.elim
  | error e =>
    cases answer' with
    | ok a' => exact h.elim
    | error e' => exact .inr ⟨e, rfl, congrArg Except.error (Eq.symm h)⟩

/-- Answers are the same if results in relation are. -/
theorem Alike.eq {answer answer' : Except ε α} (h : Alike U answer answer')
    (hU : ∀ a a', U a a' → a = a') : answer = answer' := by
  obtain ⟨a, a', rfl, rfl, ha⟩ | ⟨e, rfl, rfl⟩ := h.cases
  · rw [hU a a' ha]
  · rfl

/-- Answers that look the same are alike, if it takes no more to be in relation. -/
theorem alike_of_map_eq {f : α → γ} {answer answer' : Except ε α}
    (h : answer.map f = answer'.map f) (hU : ∀ a a', f a = f a' → U a a') :
    Alike U answer answer' := by
  cases answer with
  | ok a =>
    cases answer' with
    | ok a' => exact hU a a' (Except.ok.inj h)
    | error e' => cases h
  | error e =>
    cases answer' with
    | ok a' => cases h
    | error e' => exact Except.error.inj h

theorem alike_refl (answer : Except ε α) : Alike Eq answer answer := by
  cases answer <;> rfl

/-- Two steps in lockstep end well together or fail together. -/
theorem Lockstep.cases (h : Lockstep R V step step') {s t : State} (hst : R s t) :
    (∃ a a' u v, outcome step s = (.ok a, u) ∧ outcome step' t = (.ok a', v) ∧ V a a' ∧ R u v) ∨
      ∃ e u v, outcome step s = (.error e, u) ∧ outcome step' t = (.error e, v) ∧ R u v := by
  obtain ⟨halike, hend⟩ := h s t hst
  cases hrun : outcome step s with
  | mk result u =>
    cases hrun' : outcome step' t with
    | mk result' v =>
      rw [hrun, hrun'] at halike hend
      obtain ⟨a, a', rfl, rfl, ha⟩ | ⟨e, rfl, rfl⟩ := halike.cases
      · exact .inl ⟨a, a', u, v, rfl, rfl, ha, hend⟩
      · exact .inr ⟨e, u, v, rfl, rfl, hend⟩

theorem lockstep_pure {a : α} {a' : α'} (h : V a a') : Lockstep R V (pure a) (pure a') :=
  fun _ _ hst => ⟨h, hst⟩

theorem lockstep_throw (e : ResolutionError) : Lockstep R V (throw e) (throw e) :=
  fun _ _ hst => ⟨rfl, hst⟩

/-- What follows steps in lockstep may rely on that their results are in relation. -/
theorem Lockstep.bind {next : α → Resolver β} {next' : α' → Resolver β'}
    (h : Lockstep R V step step') (hnext : ∀ a a', V a a' → Lockstep R W (next a) (next' a')) :
    Lockstep R W (step >>= next) (step' >>= next') := by
  intro s t hst
  rw [outcome_bind, outcome_bind]
  obtain ⟨a, a', u, v, hrun, hrun', ha, huv⟩ | ⟨e, u, v, hrun, hrun', huv⟩ := h.cases hst
  · rw [hrun, hrun']
    exact hnext a a' ha u v huv
  · rw [hrun, hrun']
    exact ⟨rfl, huv⟩

/-- What follows steps in lockstep that give the same. -/
theorem Lockstep.bind_same {step step' : Resolver α} {next : α → Resolver β}
    {next' : α → Resolver β'} (h : Lockstep R Eq step step')
    (hnext : ∀ a, Lockstep R W (next a) (next' a)) :
    Lockstep R W (step >>= next) (step' >>= next') :=
  h.bind fun a a' ha => by
    obtain rfl : a = a' := ha
    exact hnext a

theorem lockstep_get : Lockstep R R get get := fun _ _ hst => ⟨hst, hst⟩

theorem lockstep_modify {f f' : State → State} (h : ∀ s t, R s t → R (f s) (f' t)) :
    Lockstep R Eq (modify f) (modify f') := fun s t hst => ⟨rfl, h s t hst⟩

theorem lockstep_ofExcept {wrap : ε → ResolutionError} {answer : Except ε α}
    {answer' : Except ε α'} (h : Alike V answer answer') :
    Lockstep R V (ofExcept wrap answer) (ofExcept wrap answer') := by
  obtain ⟨a, a', rfl, rfl, ha⟩ | ⟨e, rfl, rfl⟩ := h.cases
  · exact lockstep_pure ha
  · exact lockstep_throw _

/-- Attempts of steps in lockstep have results that are alike. -/
theorem Lockstep.attempt (h : Lockstep R V step step') :
    Lockstep R (Alike V) (Resolver.attempt step) (Resolver.attempt step') := by
  intro s t hst
  rw [outcome_attempt, outcome_attempt]
  exact h s t hst

/-- What follows attempts is to go in lockstep in either case. -/
theorem Lockstep.attempt_bind {next : Except ResolutionError α → Resolver β}
    {next' : Except ResolutionError α' → Resolver β'} (h : Lockstep R V step step')
    (hok : ∀ a a', V a a' → Lockstep R W (next (.ok a)) (next' (.ok a')))
    (herror : ∀ e, Lockstep R W (next (.error e)) (next' (.error e))) :
    Lockstep R W (Resolver.attempt step >>= next) (Resolver.attempt step' >>= next') := by
  refine h.attempt.bind fun answer answer' halike => ?_
  obtain ⟨a, a', rfl, rfl, ha⟩ | ⟨e, rfl, rfl⟩ := halike.cases
  · exact hok a a' ha
  · exact herror e

/-- Failures on behalf of a member are told apart by the failures alone. -/
theorem Lockstep.onBehalf {shape : Shape} {member : Term} (h : Lockstep R V step step') :
    Lockstep R V (Resolver.onBehalf shape member step)
      (Resolver.onBehalf shape member step') := by
  intro s t hst
  unfold Resolver.onBehalf
  rw [outcome_tryCatch, outcome_tryCatch]
  obtain ⟨a, a', u, v, hrun, hrun', ha, huv⟩ | ⟨e, u, v, hrun, hrun', huv⟩ := h.cases hst
  · rw [hrun, hrun']
    exact ⟨ha, huv⟩
  · rw [hrun, hrun']
    exact ⟨rfl, huv⟩

/-! Lists of steps that go in lockstep one by one do so as a whole. -/

section Lists

variable {l : List γ}

theorem lockstep_mapM {f f' : γ → Resolver α} (h : ∀ c, Lockstep R Eq (f c) (f' c)) :
    Lockstep R Eq (l.mapM f) (l.mapM f') := by
  induction l with
  | nil => exact lockstep_pure rfl
  | cons c l ih =>
    rw [List.mapM_cons, List.mapM_cons]
    exact (h c).bind_same fun _ => ih.bind_same fun _ => lockstep_pure rfl

theorem lockstep_forM {f f' : γ → Resolver PUnit} (h : ∀ c, Lockstep R Eq (f c) (f' c)) :
    Lockstep R Eq (l.forM f) (l.forM f') := by
  induction l with
  | nil => exact lockstep_pure rfl
  | cons c l ih => exact (h c).bind_same fun _ => ih

theorem lockstep_foldlM {f f' : α → γ → Resolver α} {a : α}
    (h : ∀ a c, Lockstep R Eq (f a c) (f' a c)) : Lockstep R Eq (l.foldlM f a) (l.foldlM f' a) := by
  induction l generalizing a with
  | nil => exact lockstep_pure rfl
  | cons c l ih =>
    rw [List.foldlM_cons, List.foldlM_cons]
    exact (h a c).bind_same fun _ => ih

end Lists

end Rules

/-! ## Typing and filling -/

/-- What the functions of typing and filling ask of two states in relation, with a namer for
each: references, item types, the check of the model and its extent are the same, and
events, relatives, properties, item types and members can be added to both.  The properties
that are added are in a relation of their own. -/
structure Parallel (g : ShapesGraph) (n n' : Namer) (R : State → State → Prop)
    (P : Property → Property → Prop) : Prop where
  log : ∀ s t event, R s t → R (s.log event) (t.log event)
  reference : ∀ s t context type, R s t →
    s.model.referenceType context type = t.model.referenceType context type
  item : ∀ s t shape id, R s t → itemType? g shape id s.model = itemType? g shape id t.model
  valid : ∀ s t, R s t → s.model.validate = t.model.validate
  extent : ∀ s t, R s t → s.model.extent = t.model.extent
  named : ∀ (shape : Shape) path type visibility,
    P ⟨n.name shape, path, type, visibility⟩ ⟨n'.name shape, path, type, visibility⟩
  relate : ∀ s t id ancestors descendants parents children, R s t →
    let f : ObjectType → ObjectType := fun o => { o with ancestors, descendants, parents, children }
    R { s with model := s.model.modifyObject id f } { t with model := t.model.modifyObject id f }
  addProperty : ∀ s t id p p', P p p' → R s t →
    let f : Property → ObjectType → ObjectType :=
      fun q o => { o with properties := o.properties ++ [q] }
    R { s with model := s.model.modifyObject id (f p) }
      { t with model := t.model.modifyObject id (f p') }
  setItem : ∀ s t id (item : ValueType), R s t →
    let f : ObjectType → ObjectType := fun o => { o with listItemType := some item }
    R { s with model := s.model.modifyObject id f } { t with model := t.model.modifyObject id f }
  fillComposite : ∀ s t kind id ids, R s t →
    Alike (fun m m' => R { s with model := m } { t with model := m' })
      (s.model.fillComposite kind id ids) (t.model.fillComposite kind id ids)

section Functions

variable {g : ShapesGraph} {n n' : Namer} {P : Property → Property → Prop}
variable (hR : Parallel g n n' R P)
include hR

theorem lockstep_report (event : Event) : Lockstep R Eq (report event) (report event) :=
  lockstep_modify fun s t hst => hR.log s t event hst

theorem lockstep_reference {context : Inherited} (type : NodeType) :
    Lockstep R Eq (reference context type) (reference context type) := by
  intro s t hst
  rw [outcome_reference, outcome_reference]
  exact ⟨hR.reference s t context type hst, hst⟩

/-- Whether an object type is a list cell is answered alike. -/
theorem lockstep_detectList {shape : Shape} (id : ObjectId) :
    Lockstep R Eq (detectList g shape id) (detectList g shape id) := by
  refine lockstep_get.bind fun s t hst => ?_
  rw [hR.item s t shape id hst]
  cases itemType? g shape id t.model with
  | none => exact lockstep_pure rfl
  | some item =>
    exact (lockstep_report hR _).bind_same fun _ =>
      lockstep_modify fun s t hst => hR.setItem s t id item hst

section Resolving

variable {shape : Shape} {context : Inherited} {resolve resolve' : NodeResolver g}
variable (hresolve : ∀ r, Lockstep R Eq (resolve r) (resolve' r))
include hresolve

theorem lockstep_nodeReference (node : Term) :
    Lockstep R Eq (nodeReference context resolve node) (nodeReference context resolve' node) := by
  unfold nodeReference requireMember
  cases g.member? node with
  | none => exact lockstep_throw _
  | some r => exact (hresolve r).bind_same (lockstep_reference hR)

theorem lockstep_memberType {typer typer' : ValueTyper g}
    (htyper : ∀ r, Lockstep R Eq (typer context r) (typer' context r)) (member : Term) :
    Lockstep R Eq (memberType context resolve typer member)
      (memberType context resolve' typer' member) := by
  unfold memberType requireMember
  cases g.member? member with
  | none => exact lockstep_throw _
  | some r =>
    simp only [pure_bind]
    split
    · exact (hresolve r).bind_same (lockstep_reference hR)
    · exact htyper r

theorem lockstep_classType? (cls : Iri) :
    Lockstep R Eq (classType? shape context resolve cls)
      (classType? shape context resolve' cls) := by
  unfold classType?
  cases g.nodeShape? (.iri cls) with
  | none => exact (lockstep_report hR _).bind_same fun _ => lockstep_pure rfl
  | some r =>
    refine (hresolve r).attempt_bind ?_ fun e => ?_
    · rintro type _ rfl
      exact (lockstep_reference hR type).bind_same fun _ => lockstep_pure rfl
    · exact (lockstep_report hR _).bind_same fun _ => lockstep_pure rfl

theorem lockstep_memberTypes {typer typer' : ValueTyper g}
    (htyper : ∀ r, Lockstep R Eq (typer context r) (typer' context r))
    (composition : Composition) :
    Lockstep R Eq (memberTypes shape context resolve typer composition)
      (memberTypes shape context resolve' typer' composition) := by
  cases composition with
  | conjunction members | disjunction members =>
    exact lockstep_mapM fun member => (lockstep_memberType hR hresolve htyper member).onBehalf
  | nodes nodes =>
    exact lockstep_mapM fun node => (lockstep_nodeReference hR hresolve node).onBehalf
  | classes classes =>
    refine (lockstep_mapM (lockstep_classType? hR hresolve)).bind_same fun types => ?_
    dsimp only
    split
    · exact (lockstep_throw _).bind_same fun _ => lockstep_pure rfl
    · exact lockstep_pure rfl

/-- A shape is typed in lockstep if its node shapes are resolved and its inline members
typed so. -/
theorem lockstep_typeWith {typer typer' : ValueTyper g} {inherited : Inherited}
    (htyper : ∀ r, Lockstep R Eq (typer (inherited.within shape) r)
      (typer' (inherited.within shape) r)) :
    Lockstep R Eq (typeWith inherited shape resolve typer)
      (typeWith inherited shape resolve' typer') := by
  refine Lockstep.bind_same ?_ fun item => lockstep_pure rfl
  unfold itemType
  split
  · next composition _ =>
    exact (lockstep_memberTypes hR hresolve htyper composition).bind_same fun members =>
      lockstep_ofExcept (alike_refl _)
  · split
    · exact lockstep_pure rfl
    · exact lockstep_throw _

/-- So is a shape with all its inline members, if only its node shapes are. -/
theorem lockstep_inlineType (trail : List Term) (inherited : Inherited) (shape : g.Member) :
    Lockstep R Eq (inlineType resolve trail inherited shape)
      (inlineType resolve' trail inherited shape) := by
  induction trail, inherited, shape using inlineType.induct with
  | case1 trail inherited shape hmem =>
    rw [inlineType, inlineType, if_pos hmem, if_pos hmem]
    exact lockstep_throw _
  | case2 trail inherited shape fresh ih =>
    rw [inlineType, inlineType, if_neg fresh, if_neg fresh]
    exact lockstep_typeWith hR hresolve (ih _)

theorem lockstep_addMember (met : List ObjectId) (member : Term) :
    Lockstep R Eq (addMember shape resolve met member) (addMember shape resolve' met member) := by
  unfold addMember
  cases g.member? member with
  | none => exact (lockstep_report hR _).bind_same fun _ => lockstep_pure rfl
  | some r =>
    refine (hresolve r).attempt_bind ?_ fun e => ?_
    · rintro (object | composite) _ rfl
      · exact lockstep_pure rfl
      · exact (lockstep_report hR _).bind_same fun _ => lockstep_pure rfl
    · exact (lockstep_report hR _).bind_same fun _ => lockstep_pure rfl

theorem lockstep_fillComposite (kind : CompositeKind) (id : CompositeId) (members : List Term) :
    Lockstep R Eq (fillComposite shape kind id members resolve)
      (fillComposite shape kind id members resolve') := by
  refine (lockstep_foldlM (lockstep_addMember hR hresolve)).bind_same fun ids s t hst => ?_
  have hfill := hR.fillComposite s t kind id ids hst
  rw [outcome_bind, outcome_bind, outcome_get, outcome_get]
  obtain ⟨m, m', hm, hm', hmodels⟩ | ⟨e, hm, hm'⟩ := hfill.cases
  · simp only [hm, hm']
    exact ⟨rfl, hmodels⟩
  · simp only [hm, hm']
    exact ⟨rfl, hst⟩

omit hR in
theorem lockstep_resolveRelatives (kinship : Kinship) :
    Lockstep R Eq (resolveRelatives shape kinship resolve)
      (resolveRelatives shape kinship resolve') :=
  (lockstep_mapM hresolve).bind_same fun _ => lockstep_pure rfl

theorem lockstep_linkRelatives (id : ObjectId) :
    Lockstep R Eq (linkRelatives shape id resolve) (linkRelatives shape id resolve') := by
  refine (lockstep_resolveRelatives hresolve .ancestor).bind_same fun ancestors => ?_
  refine (lockstep_resolveRelatives hresolve .descendant).bind_same fun descendants => ?_
  refine (lockstep_resolveRelatives hresolve .parent).bind_same fun parents => ?_
  refine (lockstep_resolveRelatives hresolve .child).bind_same fun children => ?_
  exact lockstep_modify fun s t hst => hR.relate s t id ancestors descendants parents children hst

end Resolving

/-- Properties of shapes that are typed in lockstep are in relation. -/
theorem lockstep_property {typer typer' : ValueTyper g} {s : g.Member}
    (htyper : Lockstep R Eq (typer {} s) (typer' {} s)) :
    Lockstep R P (property n typer s) (property n' typer' s) := by
  unfold property
  split
  · exact lockstep_throw _
  · split
    · exact lockstep_throw _
    · exact htyper.bind_same fun type => lockstep_pure (hR.named s.1 _ type _)

theorem lockstep_addProperty {typer typer' : ValueTyper g} {shape : Shape} {s : g.Member}
    (htyper : Lockstep R Eq (typer {} s) (typer' {} s)) (id : ObjectId) :
    Lockstep R Eq (addProperty n shape id typer s) (addProperty n' shape id typer' s) := by
  refine (lockstep_property hR htyper).attempt_bind (fun p p' hp => ?_) fun e => ?_
  · exact lockstep_modify fun s t hst => hR.addProperty s t id p p' hp hst
  · exact lockstep_report hR _

theorem lockstep_fillObject {resolve resolve' : NodeResolver g} {typer typer' : ValueTyper g}
    {shape : Shape} (hresolve : ∀ r, Lockstep R Eq (resolve r) (resolve' r))
    (htyper : ∀ r, Lockstep R Eq (typer {} r) (typer' {} r)) (id : ObjectId) :
    Lockstep R Eq (fillObject n shape id resolve typer)
      (fillObject n' shape id resolve' typer') := by
  refine (lockstep_linkRelatives hR hresolve id).bind_same fun _ => ?_
  refine (lockstep_ofExcept (alike_refl _)).bind_same fun properties => ?_
  refine (lockstep_forM fun s => lockstep_addProperty hR (htyper s) id).bind_same fun _ => ?_
  exact lockstep_detectList hR id

/-- Resolving every declared node shape gives models of states in relation. -/
theorem lockstep_resolveAllBy {resolve resolve' : NodeResolver g}
    (hresolve : ∀ r, Lockstep R Eq (resolve r) (resolve' r)) :
    Lockstep R (fun m m' => ∃ s t, R s t ∧ m = s.model ∧ m' = t.model) (resolveAllBy resolve)
      (resolveAllBy resolve') := by
  refine (lockstep_forM fun s => (hresolve s).bind_same fun _ =>
    lockstep_pure rfl).bind_same fun _ => Lockstep.bind_same ?_ fun _ => ?_
  · refine lockstep_get.bind fun s t hst => ?_
    rw [hR.valid s t hst]
    exact lockstep_ofExcept (alike_refl _)
  · refine lockstep_get.bind fun s t hst => ?_
    dsimp only
    rw [hR.extent s t hst]
    exact (lockstep_report hR _).bind_same fun _ => lockstep_pure ⟨s, t, hst, rfl, rfl⟩

end Functions

end Resolver

end ShaclTypes
