import ShaclTypes.Proofs.Catalogue
set_option autoImplicit false

/-!
# Two resolutions side by side

The same shape is typed twice: once in a resolution that is under way, and once
where the catalogue answers for all node shapes.  If the two ways to resolve node
shapes mirror each other, so do the two ways to type, step by step: either both
fail, or both end well and the first result reads as the second in the numbers of
the catalogue.

`Mirrored` says this of two steps and two states.  The reading is one that stays
while the model is built further, and so the rule for a sequence of steps can
carry it past whatever the later steps add.
-/

namespace ShaclTypes

open ShaclTypes.Rdf

namespace Resolver

open ShapesGraph

variable {g : ShapesGraph} {α β γ δ : Type} {I : State → State → Prop}
variable {act : Renumbering → α → β} {act' : Renumbering → γ → δ} {s s' : State}

/-- The two steps end alike, and `I` holds of the states that they leave. -/
def Mirrored (g : ShapesGraph) (I : State → State → Prop) (act : Renumbering → α → β)
    (s s' : State) (step : Resolver α) (step' : Resolver β) : Prop :=
  match outcome step s, outcome step' s' with
  | (.ok a, t), (.ok b, t') => I t t' ∧ s.model.Retains t.model ∧ ReadsAs g t.model act a b
  | (.error _, t), (.error _, t') => I t t' ∧ s.model.Retains t.model
  | _, _ => False

/-! ## Rules -/

section Rules

variable {step : Resolver α} {step' : Resolver β}

theorem mirrored_pure {a : α} {b : β} (hs : I s s') (h : ReadsAs g s.model act a b) :
    Mirrored g I act s s' (pure a) (pure b) := ⟨hs, .refl _, h⟩

theorem mirrored_throw {e e' : ResolutionError} (hs : I s s') :
    Mirrored g I act s s' (throw e) (throw e') := ⟨hs, .refl _⟩

/-- Nothing follows steps that fail. -/
theorem mirrored_throw_bind {e e' : ResolutionError} {next : α → Resolver γ}
    {next' : β → Resolver δ} (hs : I s s') :
    Mirrored g I act' s s' ((throw e : Resolver α) >>= next) ((throw e' : Resolver β) >>= next') :=
  ⟨hs, .refl _⟩

/-- Two steps that end alike end well together or fail together. -/
theorem Mirrored.cases (h : Mirrored g I act s s' step step') :
    (∃ a b t t', outcome step s = (.ok a, t) ∧ outcome step' s' = (.ok b, t') ∧
      I t t' ∧ s.model.Retains t.model ∧ ReadsAs g t.model act a b) ∨
    ∃ e e' t t', outcome step s = (.error e, t) ∧ outcome step' s' = (.error e', t') ∧
      I t t' ∧ s.model.Retains t.model := by
  unfold Mirrored at h
  split at h
  · next a t b t' hrun hrun' => exact .inl ⟨a, b, t, t', hrun, hrun', h⟩
  · next e t e' t' hrun hrun' => exact .inr ⟨e, e', t, t', hrun, hrun', h⟩
  · exact h.elim

/-- What follows steps that end alike may rely on what their results read as. -/
theorem Mirrored.bind {next : α → Resolver γ} {next' : β → Resolver δ}
    (h : Mirrored g I act s s' step step')
    (hnext : ∀ a b t t', I t t' → s.model.Retains t.model → ReadsAs g t.model act a b →
      Mirrored g I act' t t' (next a) (next' b)) :
    Mirrored g I act' s s' (step >>= next) (step' >>= next') := by
  unfold Mirrored
  rw [outcome_bind, outcome_bind]
  obtain ⟨a, b, t, t', hrun, hrun', hI, hretains, hreads⟩ |
    ⟨e, e', t, t', hrun, hrun', hI, hretains⟩ := h.cases
  · simp only [hrun, hrun']
    obtain ⟨c, d, u, u', hrun, hrun', hI, hmore, hreads⟩ |
      ⟨e, e', u, u', hrun, hrun', hI, hmore⟩ := (hnext a b t t' hI hretains hreads).cases
    · simp only [hrun, hrun']
      exact ⟨hI, hretains.trans hmore, hreads⟩
    · simp only [hrun, hrun']
      exact ⟨hI, hretains.trans hmore⟩
  · simp only [hrun, hrun']
    exact ⟨hI, hretains⟩

/-- What follows attempts that end alike is asked to go on alike in either case. -/
theorem Mirrored.attempt_bind {next : Except ResolutionError α → Resolver γ}
    {next' : Except ResolutionError β → Resolver δ} (h : Mirrored g I act s s' step step')
    (hok : ∀ a b t t', I t t' → s.model.Retains t.model → ReadsAs g t.model act a b →
      Mirrored g I act' t t' (next (.ok a)) (next' (.ok b)))
    (herror : ∀ e e' t t', I t t' → s.model.Retains t.model →
      Mirrored g I act' t t' (next (.error e)) (next' (.error e'))) :
    Mirrored g I act' s s' (attempt step >>= next) (attempt step' >>= next') := by
  have hcontinue : ∀ {result : Except ResolutionError α} {result' : Except ResolutionError β}
      {t t' : State}, outcome step s = (result, t) → outcome step' s' = (result', t') →
      s.model.Retains t.model → Mirrored g I act' t t' (next result) (next' result') →
      Mirrored g I act' s s' (attempt step >>= next) (attempt step' >>= next') := by
    intro result result' t t' hrun hrun' hretains hmirrored
    unfold Mirrored
    rw [outcome_bind, outcome_bind, outcome_attempt, outcome_attempt, hrun, hrun']
    obtain ⟨c, d, u, u', hrun, hrun', hI, hmore, hreads⟩ |
      ⟨e, e', u, u', hrun, hrun', hI, hmore⟩ := hmirrored.cases
    · simp only [hrun, hrun']
      exact ⟨hI, hretains.trans hmore, hreads⟩
    · simp only [hrun, hrun']
      exact ⟨hI, hretains.trans hmore⟩
  obtain ⟨a, b, t, t', hrun, hrun', hI, hretains, hreads⟩ |
    ⟨e, e', t, t', hrun, hrun', hI, hretains⟩ := h.cases
  · exact hcontinue hrun hrun' hretains (hok a b t t' hI hretains hreads)
  · exact hcontinue hrun hrun' hretains (herror e e' t t' hI hretains)

/-- Failures on behalf of members are failures still. -/
theorem Mirrored.onBehalf {shape : Shape} {member : Term}
    (h : Mirrored g I act s s' step step') :
    Mirrored g I act s s' (onBehalf shape member step) (onBehalf shape member step') := by
  unfold Mirrored Resolver.onBehalf
  rw [outcome_tryCatch, outcome_tryCatch]
  obtain ⟨a, b, t, t', hrun, hrun', hI, hretains, hreads⟩ |
    ⟨e, e', t, t', hrun, hrun', hI, hretains⟩ := h.cases
  · simp only [hrun, hrun']
    exact ⟨hI, hretains, hreads⟩
  · simp only [hrun, hrun', outcome_throw]
    exact ⟨hI, hretains⟩

/-- An answer is the same in all numbers, apart from the numbers. -/
theorem mirrored_ofExcept {ε : Type} {wrap : ε → ResolutionError} {answer : Except ε α}
    {answer' : Except ε β} (hinj : (g.numbering s.model).Injective) (hs : I s s')
    (h : ReadsAs g s.model (fun ρ => Except.map (act ρ)) answer answer') :
    Mirrored g I act s s' (ofExcept wrap answer) (ofExcept wrap answer') := by
  have hnow := h.now hinj
  cases answer with
  | ok a =>
    cases hnow
    refine mirrored_pure hs (h.map fun ρ _ heq => ?_)
    exact Except.ok.inj heq
  | error e =>
    cases hnow
    exact mirrored_throw hs

/-- Lists of steps that end alike one by one, end alike. -/
theorem mirrored_mapM {l : List γ} {f : γ → Resolver α} {f' : γ → Resolver β} (hs : I s s')
    (hstep : ∀ c ∈ l, ∀ t t', I t t' → Mirrored g I act t t' (f c) (f' c)) :
    Mirrored g I (fun ρ => List.map (act ρ)) s s' (l.mapM f) (l.mapM f') := by
  induction l generalizing s s' with
  | nil => exact mirrored_pure hs fun _ _ _ => rfl
  | cons c l ih =>
    rw [List.mapM_cons, List.mapM_cons]
    refine (hstep c List.mem_cons_self s s' hs).bind fun a b t t' ht hretains hreads => ?_
    refine (ih ht fun d hd => hstep d (List.mem_cons_of_mem c hd)).bind ?_
    intro as bs u u' hu hmore hrest
    refine mirrored_pure hu fun m hm hinj => ?_
    rw [List.map_cons, (hreads.mono hmore) m hm hinj, hrest m hm hinj]

end Rules

/-! ## Typing side by side -/

/-- The first state is sound and the second has the catalogue as its model,
whatever is reported. -/
structure Alongside (n : Namer) (g : ShapesGraph) (I : State → State → Prop) : Prop where
  sound : ∀ s s', I s s' → ∃ places, Sound n (Found (g := g)) places s
  catalogue : ∀ s s', I s s' → s'.model = g.catalogue n
  log : ∀ s s' e e', I s s' → I (s.log e) (s'.log e')

theorem Alongside.injective {n : Namer} (hI : Alongside n g I) (hs : I s s') :
    (g.numbering s.model).Injective := by
  obtain ⟨places, hsound⟩ := hI.sound s s' hs
  exact numbering_injective hsound

section Typing

variable {n : Namer} (hI : Alongside n g I)
include hI

theorem mirrored_report {e e' : Event} (hs : I s s') :
    Mirrored g I (fun _ => id) s s' (report e) (report e') :=
  ⟨hI.log s s' e e' hs, .refl _, fun _ _ _ => rfl⟩

/-- References are alike, since the catalogue knows which types are external. -/
theorem mirrored_reference {context : Inherited} {type type' : NodeType} (hs : I s s')
    (h : ReadsAs g s.model NodeType.renumber type type') :
    Mirrored g I ValueType.renumber s s' (reference context type) (reference context type') := by
  have hnow := h.now (hI.injective hs)
  cases type with
  | composite kind id =>
    subst hnow
    refine mirrored_pure hs (h.map fun ρ _ heq => ?_)
    simp only [NodeType.renumber, NodeType.composite.injEq, true_and] at heq
    simp only [ValueType.renumber, heq]
  | object id =>
    obtain ⟨places, hsound⟩ := hI.sound s s' hs
    have hexternal := external?_renumber hsound (.object id)
    rw [← hI.catalogue s s' hs] at hexternal
    subst hnow
    simp only [NodeType.renumber, TypeModel.external?] at hexternal
    simp only [NodeType.renumber, reference]
    unfold Mirrored
    rw [outcome_bind, outcome_get, outcome_bind, outcome_get]
    cases ho : (s.model.object? id).filter ObjectType.isExternal with
    | none =>
      simp only [ho, Option.map_none, Option.map_eq_none_iff] at hexternal
      simp only [ho, hexternal]
      refine mirrored_pure hs (h.map fun ρ _ heq => ?_)
      simp only [NodeType.renumber, NodeType.object.injEq] at heq
      simp only [ValueType.renumber, heq]
    | some o =>
      rw [ho, Option.map_some] at hexternal
      obtain ⟨o', ho', hkinds⟩ := Option.map_eq_some_iff.1 hexternal
      simp only [ho, ho']
      exact mirrored_pure hs fun _ _ _ => by simp only [ValueType.renumber, hkinds]

variable {resolve resolve' : NodeResolver g} {typer typer' : ValueTyper g}
variable (hresolve : ∀ r, Found r → ∀ s s', I s s' →
  Mirrored g I NodeType.renumber s s' (resolve r) (resolve' r))
include hresolve

theorem mirrored_nodeReference {context : Inherited} {node : Term} (hs : I s s') :
    Mirrored g I ValueType.renumber s s' (nodeReference context resolve node)
      (nodeReference context resolve' node) := by
  unfold nodeReference requireMember
  cases hmember : g.member? node with
  | none => exact mirrored_throw hs
  | some r =>
    refine (hresolve r (found_of_member? hmember) s s' hs).bind ?_
    exact fun type type' t t' ht _ h => mirrored_reference hI ht h

theorem mirrored_memberType {context : Inherited} {member : Term}
    (htyper : ∀ r, Found r → ∀ s s', I s s' →
      Mirrored g I ValueType.renumber s s' (typer context r) (typer' context r)) (hs : I s s') :
    Mirrored g I ValueType.renumber s s' (memberType context resolve typer member)
      (memberType context resolve' typer' member) := by
  unfold memberType requireMember
  cases hmember : g.member? member with
  | none => exact mirrored_throw hs
  | some r =>
    have hfound := found_of_member? hmember
    simp only [pure_bind]
    split
    · refine (hresolve r hfound s s' hs).bind ?_
      exact fun type type' t t' ht _ h => mirrored_reference hI ht h
    · exact htyper r hfound s s' hs

theorem mirrored_classType? {shape : Shape} {context : Inherited} {cls : Iri} (hs : I s s') :
    Mirrored g I (fun ρ => Option.map (ValueType.renumber ρ)) s s'
      (classType? shape context resolve cls) (classType? shape context resolve' cls) := by
  unfold classType?
  split
  · refine (mirrored_report hI hs).bind fun _ _ t t' ht _ _ => ?_
    exact mirrored_pure ht fun _ _ _ => rfl
  · next r hr =>
    refine (hresolve r (found_of_nodeShape? hr) s s' hs).attempt_bind ?_ ?_
    · intro type type' t t' ht _ h
      refine (mirrored_reference hI ht h).bind fun v v' u u' hu _ hv => mirrored_pure hu ?_
      exact hv.map fun ρ _ heq => by rw [Option.map_some, heq]
    · intro e e' t t' ht _
      refine (mirrored_report hI ht).bind fun _ _ u u' hu _ _ => ?_
      exact mirrored_pure hu fun _ _ _ => rfl

theorem mirrored_memberTypes {shape : Shape} {context : Inherited}
    (htyper : ∀ r, Found r → ∀ s s', I s s' →
      Mirrored g I ValueType.renumber s s' (typer context r) (typer' context r)) (hs : I s s')
    (composition : Composition) :
    Mirrored g I (fun ρ => List.map (ValueType.renumber ρ)) s s'
      (memberTypes shape context resolve typer composition)
      (memberTypes shape context resolve' typer' composition) := by
  cases composition with
  | conjunction members =>
    exact mirrored_mapM hs fun _ _ _ _ ht => (mirrored_memberType hI hresolve htyper ht).onBehalf
  | disjunction members =>
    exact mirrored_mapM hs fun _ _ _ _ ht => (mirrored_memberType hI hresolve htyper ht).onBehalf
  | nodes nodes =>
    exact mirrored_mapM hs fun _ _ _ _ ht => (mirrored_nodeReference hI hresolve ht).onBehalf
  | classes classes =>
    refine (mirrored_mapM hs fun _ _ _ _ ht => mirrored_classType? hI hresolve ht).bind ?_
    intro types types' t t' ht _ h
    have htypes : ReadsAs g t.model (fun ρ => List.map (ValueType.renumber ρ))
        (types.filterMap id) (types'.filterMap id) := by
      refine h.map fun ρ _ heq => ?_
      rw [← heq, List.filterMap_map, List.map_filterMap]
      rfl
    have hempty : (types.filterMap id).isEmpty = (types'.filterMap id).isEmpty := by
      rw [← htypes.now (hI.injective ht), List.isEmpty_map]
    dsimp only
    rw [hempty]
    split
    · exact mirrored_throw_bind ht
    · exact mirrored_pure ht htypes

theorem mirrored_itemType {shape : Shape} {context : Inherited}
    (htyper : ∀ r, Found r → ∀ s s', I s s' →
      Mirrored g I ValueType.renumber s s' (typer context r) (typer' context r)) (hs : I s s') :
    Mirrored g I ValueType.renumber s s' (itemType shape context resolve typer)
      (itemType shape context resolve' typer') := by
  unfold itemType
  split
  · next composition _ =>
    refine (mirrored_memberTypes hI hresolve htyper hs composition).bind ?_
    intro members members' t t' ht _ h
    refine mirrored_ofExcept (hI.injective ht) ht (h.map fun ρ _ heq => ?_)
    rw [← heq, ValueType.collapse_renumber]
  · cases hscalar : scalarType? ⟨shape.constraints, context.defaultValue⟩ with
    | none => exact mirrored_throw hs
    | some type =>
      refine mirrored_pure hs fun _ _ _ => ?_
      unfold scalarType? at hscalar
      obtain ⟨rule, -, rfl⟩ := Option.map_eq_some_iff.1 hscalar
      cases rule <;> simp only [ScalarRule.type, ValueType.renumber]

/-- Typing goes alike wherever resolving node shapes does. -/
theorem mirrored_inlineType (trail : List Term) (inherited : Inherited) (shape : g.Member)
    (hs : I s s') :
    Mirrored g I ValueType.renumber s s' (inlineType resolve trail inherited shape)
      (inlineType resolve' trail inherited shape) := by
  induction trail, inherited, shape using inlineType.induct generalizing s s' with
  | case1 trail inherited shape hmem =>
    rw [inlineType, inlineType, if_pos hmem, if_pos hmem]
    exact mirrored_throw hs
  | case2 trail inherited shape fresh ih =>
    rw [inlineType, inlineType, if_neg fresh, if_neg fresh]
    refine (mirrored_itemType hI hresolve (fun r _ t t' ht => ih _ r ht) hs).bind ?_
    intro item item' t t' ht _ h
    refine mirrored_pure ht (h.map fun ρ _ heq => ?_)
    rw [← heq, Cardinality.wrap_renumber]

/-- So do property shapes. -/
theorem mirrored_property (m : Namer) (shape : g.Member) (hs : I s s') :
    Mirrored g I Property.renumber s s' (property m (inlineType resolve []) shape)
      (property m (inlineType resolve' []) shape) := by
  unfold property
  split
  · exact mirrored_throw hs
  · split
    · exact mirrored_throw hs
    · refine (mirrored_inlineType hI hresolve [] {} shape hs).bind ?_
      intro type type' t t' ht _ h
      refine mirrored_pure ht (h.map fun ρ _ heq => ?_)
      simp only [Property.renumber, heq]

end Typing

end Resolver

end ShaclTypes
