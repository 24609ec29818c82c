import ShaclTypes.Proofs.LoadedGraph
import ShaclTypes.Proofs.WholeGraph
set_option autoImplicit false

/-!
# Where failures come from

Whatever goes wrong inside a property, a class or a member of a node-level composite
is reported and left out, so that only two things can fail a node shape: a composite
with too few members, and a property shape that the graph does not have (`Fault`).
An object type fails with one of its relatives, for the reason that the relative has.

A composite that fails is not resolvable at all, however many node shapes are assumed
around it: two of its members would have sufficed, and what can be resolved alone can
be resolved within others.
-/

namespace ShaclTypes

open ShaclTypes.Rdf ShaclTypes.Vocabulary

namespace Resolver

open ShapesGraph

variable {g : ShapesGraph} {settings : Settings}

/-! ## Steps that do not fail -/

section Unfailing

variable {α β : Type} {step : Resolver α}

/-- The step has a result, whatever the state. -/
def Unfailing (step : Resolver α) : Prop :=
  Ensures (fun _ => True) step (fun _ _ => True) (fun _ _ => False)

theorem Unfailing.ensures (h : Unfailing step) (before : State → Prop)
    (failed : ResolutionError → State → Prop) :
    Ensures before step (fun _ _ => True) failed :=
  h.mono (fun _ _ => trivial) (fun _ _ h => h) (fun _ _ h => h.elim)

theorem unfailing_pure (a : α) : Unfailing (pure a) := fun _ _ => trivial

theorem unfailing_modify (f : State → State) : Unfailing (modify f) := fun _ _ => trivial

theorem unfailing_report (event : Event) : Unfailing (report event) := unfailing_modify _

theorem unfailing_get : Unfailing get := fun _ _ => trivial

theorem Unfailing.bind {next : α → Resolver β} (h : Unfailing step)
    (hnext : ∀ a, Unfailing (next a)) : Unfailing (step >>= next) :=
  Ensures.bind h hnext

theorem unfailing_attempt (step : Resolver α) : Unfailing (attempt step) := by
  intro s _
  rw [outcome_attempt]
  trivial

theorem unfailing_foldlM {l : List α} {f : β → α → Resolver β} (h : ∀ b a, Unfailing (f b a))
    (b : β) : Unfailing (l.foldlM f b) :=
  ensures_foldlM (fun _ _ _ => True) l [] b fun _ b a _ => h b a

theorem unfailing_forM {l : List α} {f : α → Resolver Unit} (h : ∀ a, Unfailing (f a)) :
    Unfailing (l.forM f) :=
  ensures_forM (fun _ _ => True) l [] fun _ a _ => h a

/-- A member of a node-level composite is met or left out. -/
theorem unfailing_addMember (shape : Shape) (resolve : NodeResolver g) (met : List ObjectId)
    (member : Term) : Unfailing (addMember shape resolve met member) := by
  unfold addMember
  split
  · exact (unfailing_report _).bind fun _ => unfailing_pure _
  · refine (unfailing_attempt _).bind fun result => ?_
    split
    · exact unfailing_pure _
    · exact (unfailing_report _).bind fun _ => unfailing_pure _
    · exact (unfailing_report _).bind fun _ => unfailing_pure _

/-- A property is added or left out. -/
theorem unfailing_addProperty (n : Namer) (shape : Shape) (id : ObjectId) (typer : ValueTyper g)
    (q : g.Member) : Unfailing (addProperty n shape id typer q) := by
  refine (unfailing_attempt _).bind fun result => ?_
  split
  · exact unfailing_modify _
  · exact unfailing_report _

theorem unfailing_detectList (shape : Shape) (id : ObjectId) :
    Unfailing (detectList g shape id) := by
  refine unfailing_get.bind fun s => ?_
  split
  · exact unfailing_pure _
  · exact (unfailing_report _).bind fun _ => unfailing_modify _

end Unfailing

/-! ## Faults -/

/-- What a node shape can fail for. -/
inductive Fault (g : ShapesGraph) : ResolutionError → Prop where
  /-- a composite lists too few members -/
  | declared {c : g.Member} {kind : CompositeKind} {members : List Term}
      (hcomposite : c.1.constraints.nodeComposition? = some (kind, members))
      (hfew : members.length < 2) :
      Fault g (.tooFewDeclared c.1.identifier members.length)
  /-- too few of its members are resolved to object types, and the composite cannot be
  resolved at all -/
  | resolved {c : g.Member} {kind : CompositeKind} {members : List Term} {count : Nat}
      (hfound : Found c) (hcomposite : c.1.constraints.nodeComposition? = some (kind, members))
      (hfew : count < 2) (hnever : ¬resolvableIn g .outermost c.1.identifier) :
      Fault g (.tooFewResolved c.1.identifier (.tooFewObjects count))
  /-- the property shapes of a shape are not all there -/
  | missing {s : g.Member} {cause : ShapeError} (hmissing : g.propertyShapes s.1 = .error cause) :
      Fault g (.shapes cause)

theorem fillComposite_eq_error {m : TypeModel} {kind : CompositeKind} {id : CompositeId}
    {ids : List ObjectId} {cause : ModelError} (h : m.fillComposite kind id ids = .error cause) :
    ids.length < 2 ∧ cause = .tooFewObjects ids.length := by
  unfold TypeModel.fillComposite at h
  split at h
  · cases h
  · next c hc =>
    unfold ObjectComposite.fill at h
    split at h
    · next hfew => exact ⟨hfew, (Except.error.inj h).symm⟩
    · cases h

/-- Filling a composite fails for its number of object types only. -/
theorem ensures_fillComposite_fault (shape : Shape) (kind : CompositeKind) (id : CompositeId)
    (members : List Term) (resolve : NodeResolver g) (before : State → Prop) :
    Ensures before (fillComposite shape kind id members resolve) (fun _ _ => True)
      (fun e _ => ∃ count, count < 2 ∧
        e = .tooFewResolved shape.identifier (.tooFewObjects count)) := by
  have hmembers : Unfailing (members.foldlM (addMember shape resolve) []) :=
    unfailing_foldlM (unfailing_addMember shape resolve) []
  refine (hmembers.ensures _ _).bind fun ids => ensures_get_bind fun s _ => ?_
  refine Ensures.bind (ensures_ofExcept (fun _ _ _ _ => trivial) fun cause hcause _ _ => ?_)
    fun _ => (unfailing_modify _).ensures _ _
  obtain ⟨hfew, rfl⟩ := fillComposite_eq_error hcause
  exact ⟨ids.length, hfew, rfl⟩

/-! ## Failing in a scope -/

/-- A moment in a scope at which whatever is resolved can be. -/
structure InScope (g : ShapesGraph) (settings : Settings) (scope : Scope) (s : State) : Prop where
  sound : Sound (namer g settings) (Found (g := g)) scope.places s
  backed : ∀ p ∈ s.resolved, resolvableIn g scope p.1

section Scopes

variable {scope : Scope} {s : State} {shape : g.Member}

theorem InScope.log (h : InScope g settings scope s) (event : Event) :
    InScope g settings scope (s.log event) := ⟨h.sound.log event, h.backed⟩

/-- Resolving a node shape leads to such a moment again, or else the node shape cannot be
resolved in the scope. -/
theorem InScope.ensures_nodeShape (h : InScope g settings scope s) {r : g.Member}
    (hfound : Found r) :
    Ensures (fun t => t = s) (nodeShape g settings scope r) (fun _ => InScope g settings scope)
      (fun _ _ => ¬resolvableIn g scope r.1.identifier) := by
  have hsound := nodeShape_sound (fun _ h => h) scope r hfound s h.sound
  refine (hsound.and (nodeShape_settles scope r hfound s h.sound h.backed)).mono (fun _ h => h) ?_
    (fun _ _ h => h.2)
  rintro type t ⟨⟨ht, -⟩, -, hsince⟩
  refine ⟨ht, fun p hp => ?_⟩
  by_cases hold : p ∈ s.resolved
  · exact h.backed p hold
  · obtain ⟨⟨r', hr'⟩, -⟩ := hsince p hp hold
    exact hr'.resolvable

/-- A place that has been taken for an object type is such a moment within it. -/
theorem InScope.placed (h : InScope g settings scope s)
    (hfound : Found shape) (hfresh : shape.1.identifier ∉ (ledger scope.places s).map Prod.fst)
    (hobject : shape.1.constraints.nodeComposition? = none)
    (failed : ResolutionError → State → Prop) :
    Ensures (fun t => t = s) (addObject ((namer g settings).objectType shape.1))
      (fun id => InScope g settings (scope.enter shape.1.identifier (.object id))) failed := by
  rintro t rfl
  have hplaced := (ensures_addObject h.sound hfound hfresh hobject fun _ _ => True).ok rfl
    (outcome_addObject _ _)
  exact ⟨hplaced.1.sound, fun p hp => resolvableIn_le_within scope _ _ (h.backed p hp)⟩

/-- What cannot be resolved in a scope cannot be resolved outside of it. -/
theorem not_resolvable_outermost {t : Term} (h : ¬resolvableIn g scope t) :
    ¬resolvableIn g .outermost t := by
  refine fun hout => h (resolvable_mono (fun u hu => ?_) t hout)
  cases hu

/-- The relatives of an object type fail for faults only, if resolving them does. -/
theorem ensures_linkRelatives_fault {resolve : NodeResolver g} {K : State → Prop}
    (hresolve : ∀ r, Found r → Ensures K (resolve r) (fun _ => K) (fun e _ => Fault g e))
    (id : ObjectId) :
    Ensures K (linkRelatives shape.1 id resolve) (fun _ _ => True) (fun e _ => Fault g e) := by
  have hrelatives : ∀ kinship, Ensures K (resolveRelatives shape.1 kinship resolve) (fun _ => K)
      (fun e _ => Fault g e) := fun kinship =>
    Ensures.bind (ensures_mapM (fun _ _ => K) (g.relatives kinship shape.1) [] []
      fun _ _ r hr => hresolve r (found_of_mem_relatives hr)) fun _ => ensures_pure fun _ h => h
  refine (hrelatives _).bind fun _ => (hrelatives _).bind fun _ => ?_
  refine (hrelatives _).bind fun _ => (hrelatives _).bind fun _ => ?_
  exact (unfailing_modify _).ensures _ _

/-- Filling an object type fails with its relatives, or for want of a property shape. -/
theorem ensures_fillObject_fault {resolve : NodeResolver g} {typer : ValueTyper g}
    {K : State → Prop}
    (hresolve : ∀ r, Found r → Ensures K (resolve r) (fun _ => K) (fun e _ => Fault g e))
    (id : ObjectId) :
    Ensures K (fillObject (namer g settings) shape.1 id resolve typer) (fun _ _ => True)
      (fun e _ => Fault g e) := by
  refine (ensures_linkRelatives_fault hresolve id).bind fun _ => ?_
  refine Ensures.bind (ensures_ofExcept (fun _ _ _ _ => trivial)
    fun _ hmissing _ _ => .missing hmissing) fun properties => ?_
  refine Ensures.bind ((unfailing_forM fun q => ?_).ensures _ _) fun _ => ?_
  · exact unfailing_addProperty _ _ _ _ _
  · exact (unfailing_detectList _ _).ensures _ _

/-- Every failure is a fault. -/
theorem nodeShape_fault (scope : Scope) (shape : g.Member) (s : State) (hfound : Found shape)
    (hs : InScope g settings scope s) :
    Ensures (fun t => t = s) (nodeShape g settings scope shape) (fun _ _ => True)
      (fun e _ => Fault g e) := by
  -- a composite fails for good only because it cannot be resolved, which is known already
  have hunresolvable : Ensures (fun t => t = s) (nodeShape g settings scope shape)
      (fun _ _ => True) (fun e _ => ¬resolvableIn g scope shape.1.identifier → Fault g e) := by
    refine nodeShape_induction settings (fun scope shape s => Found shape ∧ InScope g settings scope s)
      (fun _ _ _ _ _ => True)
      (fun scope shape _ e _ => ¬resolvableIn g scope shape.1.identifier → Fault g e)
      (fun _ _ _ _ _ _ => trivial) (fun _ _ _ _ _ _ => trivial) ?_ scope shape s ⟨hfound, hs⟩
    intro scope shape s hstart hplace hresolved ih
    obtain ⟨hfound, hs⟩ := hstart
    unfold build
    split
    · next kind members hcomposite =>
      dsimp only
      split
      · next hfew => exact ensures_throw_bind fun _ _ _ => .declared hcomposite hfew
      · have hplaced : Ensures (fun t => t = s.log (.resolving shape.1.identifier))
            (addComposite kind ((namer g settings).objectComposite shape.1)) (fun _ _ => True)
            (fun e _ => ¬resolvableIn g scope shape.1.identifier → Fault g e) := fun _ _ => trivial
        refine hplaced.bind fun id => ?_
        refine Ensures.bind ((ensures_fillComposite_fault _ _ _ _ _ _).mono (fun _ h => h)
          (fun _ _ h => h) ?_) fun _ => ensures_pure fun _ _ => trivial
        rintro e - ⟨count, hfew, rfl⟩ hnever
        exact .resolved hfound hcomposite hfew (not_resolvable_outermost hnever)
    · next hobject =>
      have hfresh := not_mem_ledger hplace hresolved
      refine (InScope.placed (hs.log _) hfound hfresh hobject _).bind fun id => ?_
      refine Ensures.bind ((ensures_fillObject_fault (fun r hr => Ensures.of_forall fun t ht => ?_)
        id).mono (fun _ h => h) (fun _ _ h => h) fun _ _ h _ => h) fun _ =>
        ensures_pure fun _ _ => trivial
      exact ((ht.ensures_nodeShape hr).and (ih _ r t ⟨hr, ht⟩)).mono (fun _ h => h)
        (fun _ _ h => h.1) fun _ _ h => h.2 h.1
  exact (hunresolvable.and (hs.ensures_nodeShape hfound)).mono (fun _ h => h)
    (fun _ _ _ => trivial) fun _ _ h => h.1 h.2

end Scopes

/-! ## Failing a whole graph -/

/-- A graph that cannot be resolved fails for a fault; its final check does not fail. -/
theorem resolveAll_fault (g : ShapesGraph) (settings : Settings) :
    Ensures (fun s => s = .empty) (resolveAll g settings) (fun _ _ => True)
      (fun e _ => Fault g e) := by
  have hnext : ∀ r ∈ g.nodeShapes, Ensures (AllSettled g settings)
      (do let _ ← resolveNodeShape g settings r) (fun _ => AllSettled g settings)
      (fun e _ => Fault g e) := by
    intro r hr
    have hfound : Found r := found_of_mem_nodeShapes hr
    refine Ensures.bind (Ensures.of_forall fun s hs => ?_) fun _ => ensures_pure fun _ h => h
    have hfault := nodeShape_fault .outermost r s hfound ⟨hs.sound, fun _ hp => hs.backed hp⟩
    exact ((hs.ensures_nodeShape hfound).and hfault).mono (fun _ h => h) (fun _ _ h => h.1.1)
      fun _ _ h => h.2
  have hloop := ensures_forM (fun _ => AllSettled g settings) g.nodeShapes [] fun _ => hnext
  have hcheck : Ensures (AllSettled g settings) checkModel (fun _ _ => True)
      (fun e _ => Fault g e) := by
    refine ensures_get_bind fun s hs => ?_
    rw [hs.validate]
    exact ensures_pure fun _ _ => trivial
  refine (hloop.mono ?_ (fun _ _ h => h) fun _ _ h => h).bind fun _ => hcheck.bind fun _ => ?_
  · rintro s rfl
    exact allSettled_empty
  · refine Unfailing.ensures ?_ _ _
    exact unfailing_get.bind fun _ => (unfailing_report _).bind fun _ => unfailing_pure _

/-! ## Too few members -/

/-- A member that resolves to an object type has a slot of its own. -/
theorem memberSlot_of_object {s : State} (h : AllSettled g settings s) {member : Term}
    (hobject : (memberAgain? g settings s member).isSome = true) :
    member ∈ g.names ∧
      g.memberSlot (resolvableIn g .outermost) member = some ⟨g.number member⟩ := by
  obtain ⟨id, hid⟩ := Option.isSome_iff_exists.1 hobject
  obtain ⟨r, hr, hresolved⟩ := Option.bind_eq_some_iff.1 hid
  have hfound := found_of_member? hr
  obtain rfl := identifier_of_member? hr
  have hspec := h.ensures_nodeShape hfound
  cases hrun : outcome (resolveNodeShape g settings r) s with
  | mk result t =>
    rw [hrun] at hresolved
    cases result with
    | error e => cases hresolved
    | ok type =>
      obtain ⟨ht, -, hresolvable, hlisted, -, -⟩ := hspec.ok rfl hrun
      have htype : type = .object id := by
        cases type with
        | object id' => exact congrArg NodeType.object (Option.some.inj hresolved)
        | composite kind id' => cases hresolved
      subst htype
      obtain ⟨shape, hshape, hidentifier, hnone, -⟩ := ht.sound.made _ hlisted
      have hsame : shape = r := by
        have hshape' : g.member? shape.1.identifier = some shape := hshape
        rw [hidentifier] at hshape'
        exact Option.some.inj (hshape'.symm.trans hr)
      subst hsame
      refine ⟨shape.mem_names, ?_⟩
      rw [memberSlot_of_found hresolvable hr, slot, hnone]
      rfl

/-- If two members of a composite resolve to object types, the composite can be
resolved. -/
theorem resolvable_of_two_members {s : State} (h : AllSettled g settings s) {c : g.Member}
    (hfound : Found c) {kind : CompositeKind} {members : List Term}
    (hcomposite : c.1.constraints.nodeComposition? = some (kind, members)) {m₁ m₂ : Term}
    (hm₁ : m₁ ∈ members) (hm₂ : m₂ ∈ members) (hne : m₁ ≠ m₂)
    (hobject₁ : (memberAgain? g settings s m₁).isSome = true)
    (hobject₂ : (memberAgain? g settings s m₂).isSome = true) :
    resolvableIn g .outermost c.1.identifier := by
  obtain ⟨hname₁, hslot₁⟩ := memberSlot_of_object h hobject₁
  obtain ⟨-, hslot₂⟩ := memberSlot_of_object h hobject₂
  refine resolvable_iff.2 (.inr ⟨c, hfound, ?_⟩)
  unfold Buildable
  rw [hcomposite]
  have hdistinct : [(⟨g.number m₁⟩ : ObjectId), ⟨g.number m₂⟩].Nodup := by
    simp only [List.nodup_cons, List.mem_singleton, ObjectId.mk.injEq, List.not_mem_nil,
      not_false_eq_true, List.nodup_nil, and_true]
    exact fun heq => hne (number_inj hname₁ heq)
  refine hdistinct.length_le_of_subset fun id hid => ?_
  rw [memberSlots, mem_addAll]
  refine .inr (List.mem_filterMap.2 ?_)
  simp only [List.mem_cons, List.not_mem_nil, or_false] at hid
  rcases hid with rfl | rfl
  · exact ⟨m₁, hm₁, hslot₁⟩
  · exact ⟨m₂, hm₂, hslot₂⟩

/-- What a node-level composite lists: its conjunction, or else its disjunction. -/
theorem nodeComposition?_members {c : Constraints} {kind : CompositeKind} {members : List Term}
    (h : c.nodeComposition? = some (kind, members)) :
    members ≠ [] ∧ members = if c.allOf = [] then c.anyOf else c.allOf := by
  refine ⟨Constraints.nodeComposition?_ne_nil h, ?_⟩
  unfold Constraints.nodeComposition? at h
  by_cases hallOf : c.allOf = []
  · rw [hallOf, if_neg (by simp)] at h
    split at h
    · rw [if_pos hallOf]
      exact (Prod.mk.inj (Option.some.inj h)).2.symm
    · cases h
  · rw [if_pos (by simpa using hallOf)] at h
    rw [if_neg hallOf]
    exact (Prod.mk.inj (Option.some.inj h)).2.symm

/-- If a loaded graph cannot be resolved, the blame is on one of its shapes, which lists
the members of a composite, and for one of two reasons: it lists less than two members;
or less than two object types came of them, and then, in whatever state they are
resolved from outside, of two different members at most one resolves to an object type. -/
theorem only_composites_fail {triples : List Triple} {prefixes : PrefixMap} {g : ShapesGraph}
    {settings : Settings} {e : ResolutionError}
    (hload : ShapesGraph.ofTriples triples prefixes = .ok g)
    (hfail : (resolveGraph g settings).1 = .error e) :
    ∃ shape ∈ g.shapes, ∃ members,
      members = (if shape.constraints.allOf = [] then shape.constraints.anyOf
        else shape.constraints.allOf) ∧ members ≠ [] ∧
      ((e = .tooFewDeclared shape.identifier members.length ∧ members.length < 2) ∨
        ∃ count, e = .tooFewResolved shape.identifier (.tooFewObjects count) ∧ count < 2 ∧
          ∀ (calls : List (Call g)), ∀ m₁ ∈ members, ∀ m₂ ∈ members,
            (memberAgain? g settings (afterCalls settings calls) m₁).isSome = true →
            (memberAgain? g settings (afterCalls settings calls) m₂).isSome = true →
            m₁ = m₂) := by
  have hloaded : g.Loaded := loaded_of_ofTriples hload
  have hfault : Fault g e := by
    have hspec := resolveAll_fault g settings
    cases hrun : outcome (resolveAll g settings) .empty with
    | mk result t =>
      rw [resolveGraph, hrun] at hfail
      obtain rfl : result = .error e := hfail
      exact hspec.error rfl hrun
  cases hfault with
  | @declared c kind members hcomposite hfew =>
    obtain ⟨hne, hmembers⟩ := nodeComposition?_members hcomposite
    exact ⟨c.1, c.2, members, hmembers, hne, .inl ⟨rfl, hfew⟩⟩
  | @resolved c kind members count hfound hcomposite hfew hnever =>
    obtain ⟨hne, hmembers⟩ := nodeComposition?_members hcomposite
    refine ⟨c.1, c.2, members, hmembers, hne, .inr ⟨count, rfl, hfew, ?_⟩⟩
    intro calls m₁ hm₁ m₂ hm₂ hobject₁ hobject₂
    by_contra hdifferent
    have hsettled : AllSettled g settings (afterCalls settings calls) :=
      allSettled_afterCalls calls fun shape _ => hloaded.found shape
    exact hnever (resolvable_of_two_members hsettled hfound hcomposite hm₁ hm₂ hdifferent
      hobject₁ hobject₂)
  | @missing s cause hmissing =>
    obtain ⟨properties, hproperties⟩ := hloaded.propertyShapes s
    rw [hmissing] at hproperties
    cases hproperties

/-! A node shape that is the conjunction of another one with itself. -/

/-- The statements about the two. -/
def echo : List Triple :=
  [⟨.iri ⟨"voice"⟩, rdf.type, .iri sh.nodeShape⟩,
   ⟨.iri ⟨"echo"⟩, rdf.type, .iri sh.nodeShape⟩,
   ⟨.iri ⟨"echo"⟩, sh.conjunction, .blank "first"⟩,
   ⟨.blank "first", rdf.first, .iri ⟨"voice"⟩⟩,
   ⟨.blank "first", rdf.rest, .blank "second"⟩,
   ⟨.blank "second", rdf.first, .iri ⟨"voice"⟩⟩,
   ⟨.blank "second", rdf.rest, .iri rdf.nil⟩]

theorem only_composites_fail_echo :
    ∃ g, ShapesGraph.ofTriples echo .empty = .ok g ∧
      (resolveGraph g .standard).1 =
        .error (.tooFewResolved (.iri ⟨"echo"⟩) (.tooFewObjects 1)) ∧
      ∃ shape ∈ g.shapes, shape.identifier = .iri ⟨"echo"⟩ ∧
        (shape.constraints.allOf ≠ [] ∨ shape.constraints.anyOf ≠ []) := by
  have hrun : (ShapesGraph.ofTriples echo .empty).toOption.map (fun g =>
      match (resolveGraph g .standard).1 with
      | .error e => some e
      | .ok _ => none) =
        some (some (.tooFewResolved (.iri ⟨"echo"⟩) (.tooFewObjects 1))) := by decide +kernel
  cases hload : ShapesGraph.ofTriples echo .empty with
  | error e => rw [hload] at hrun; cases hrun
  | ok g =>
    rw [hload] at hrun
    cases hfail : (resolveGraph g .standard).1 with
    | ok m => simp [Except.toOption, hfail] at hrun
    | error e =>
      simp only [Except.toOption, hfail, Option.map_some, Option.some.injEq] at hrun
      subst hrun
      refine ⟨g, rfl, hfail, ?_⟩
      obtain ⟨shape, hshape, members, hmembers, hne, hcause⟩ := only_composites_fail hload hfail
      refine ⟨shape, hshape, ?_, ?_⟩
      · rcases hcause with ⟨hdeclared, -⟩ | ⟨count, hresolved, -⟩
        · cases hdeclared
        · exact (ResolutionError.tooFewResolved.inj hresolved).1.symm
      · by_cases hallOf : shape.constraints.allOf = []
        · rw [if_pos hallOf] at hmembers
          exact .inr (hmembers ▸ hne)
        · exact .inl hallOf

end Resolver

end ShaclTypes
