import ShaclTypes.Proofs.Bare
import ShaclTypes.Proofs.Lockstep
import ShaclTypes.Proofs.Redeclaring
set_option autoImplicit false

/-!
# Names decide nothing

The same shapes are resolved twice, with other prefixes and other settings.  The two
models differ in chosen names, and nothing that is done to them depends on those: both
resolutions go in lockstep, from states with one bare model to states with one bare
model.  For typing and filling this is an instance of `Parallel`; what is left are the
steps that make entries, and the recursion of node shapes that ties them up.
-/

namespace ShaclTypes

open ShaclTypes.Rdf

/-! ## States that differ in names -/

namespace State

variable (s : State)

theorem bare_rollback (e : Extent) : (s.rollback e).bare = s.bare.rollback e := by
  simp only [bare, rollback, TypeModel.bare_truncate]

/-- The states differ in chosen names only. -/
def Resembles (s s' : State) : Prop := s.bare = s'.bare

namespace Resembles

variable {s} {s' : State} (h : s.Resembles s')
include h

theorem model : s.model.bare = s'.model.bare := congrArg State.model h

/-- What can be asked of bare models has one answer for both models. -/
theorem answer {α : Type} (ask : TypeModel → α) (hask : ∀ m, ask m.bare = ask m) :
    ask s.model = ask s'.model := by
  rw [← hask, h.model, hask]

theorem extent : s.model.extent = s'.model.extent := h.answer _ TypeModel.extent_bare

theorem resolved? (identifier : Term) : s.resolved? identifier = s'.resolved? identifier :=
  show s.bare.resolved? identifier = s'.bare.resolved? identifier by rw [h]

theorem events : s.events = s'.events := show s.bare.events = s'.bare.events by rw [h]

theorem log (e : Event) : (s.log e).Resembles (s'.log e) := congrArg (State.log · e) h

theorem record (identifier : Term) (type : NodeType) :
    (s.record identifier type).Resembles (s'.record identifier type) :=
  congrArg (State.record · identifier type) h

theorem rollback (e : Extent) : (s.rollback e).Resembles (s'.rollback e) := by
  rw [Resembles, bare_rollback, bare_rollback, h]

/-- The same change of both models leaves the same bare models. -/
theorem withModel {m m' : TypeModel} (hm : m.bare = m'.bare) :
    ({ s with model := m } : State).Resembles { s' with model := m' } :=
  have hs : ({ s with model := m } : State).bare = { s.bare with model := m.bare } := rfl
  hs.trans (hm ▸ h ▸ rfl)

/-- Both changes do the same to bare object types. -/
theorem modifyObject (id : ObjectId) {f f' : ObjectType → ObjectType}
    (change : ObjectType → ObjectType) (hf : ∀ o, (f o).bare = change o.bare)
    (hf' : ∀ o, (f' o).bare = change o.bare) :
    ({ s with model := s.model.modifyObject id f } : State).Resembles
      { s' with model := s'.model.modifyObject id f' } := by
  refine h.withModel ?_
  rw [TypeModel.bare_modifyObject _ _ hf, TypeModel.bare_modifyObject _ _ hf', h.model]

end Resembles

end State

/-- The graph with other prefixes. -/
abbrev ShapesGraph.withPrefixes (g : ShapesGraph) (prefixes : PrefixMap) : ShapesGraph :=
  { g with prefixes }

namespace Resolver

/-! ## Typing and filling -/

/-- The properties differ in chosen names only. -/
def SameButName (p p' : Property) : Prop := p.bare = p'.bare

/-- No name decides how values are typed and entries are filled. -/
theorem parallel_resembles (g : ShapesGraph) (n n' : Namer) :
    Parallel g n n' State.Resembles SameButName where
  log _ _ e h := h.log e
  reference _ _ context type h :=
    h.answer (TypeModel.referenceType · context type)
      (TypeModel.referenceType_bare · context type)
  item _ _ shape id h :=
    h.answer (itemType? g shape id) (TypeModel.itemType?_bare · g shape id)
  valid _ _ h := h.answer TypeModel.validate TypeModel.validate_bare
  extent _ _ h := h.extent
  named shape path type visibility := by
    simp only [SameButName, Property.bare, Namer.bare_name n n']
  relate _ _ id ancestors descendants parents children h :=
    h.modifyObject id (fun o => { o with ancestors, descendants, parents, children })
      (fun _ => rfl) fun _ => rfl
  addProperty _ _ id p p' hp h := by
    have hchange : ∀ (q : Property) (o : ObjectType),
        ObjectType.bare { o with properties := o.properties ++ [q] } =
          { o.bare with properties := o.bare.properties ++ [q.bare] } := by
      intro q o
      simp only [ObjectType.bare, List.map_append, List.map_cons, List.map_nil]
    have hbare : p.bare = p'.bare := hp
    exact h.modifyObject id (fun o => { o with properties := o.properties ++ [p.bare] })
      (hchange p) (hbare ▸ hchange p')
  setItem _ _ id item h :=
    h.modifyObject id (fun o => { o with listItemType := some item }) (fun _ => rfl) fun _ => rfl
  fillComposite s t kind id ids h := by
    have hfill : (s.model.fillComposite kind id ids).map TypeModel.bare =
        (t.model.fillComposite kind id ids).map TypeModel.bare := by
      rw [TypeModel.bare_fillComposite, TypeModel.bare_fillComposite, h.model]
    exact alike_of_map_eq hfill fun m m' hm => h.withModel hm

/-! ## Building -/

section Building

variable {g : ShapesGraph} {shape : Shape}

theorem lockstep_addObject {o o' : ObjectType} (h : o.bare = o'.bare) :
    Lockstep State.Resembles Eq (addObject o) (addObject o') := by
  intro s t hst
  refine ⟨hst.answer TypeModel.nextObject TypeModel.nextObject_bare, hst.withModel ?_⟩
  rw [TypeModel.bare_addObject, TypeModel.bare_addObject, hst.model, h]

theorem lockstep_addComposite (kind : CompositeKind) {c c' : ObjectComposite}
    (h : c.bare = c'.bare) :
    Lockstep State.Resembles Eq (addComposite kind c) (addComposite kind c') := by
  intro s t hst
  refine ⟨hst.answer (TypeModel.nextComposite · kind) (TypeModel.nextComposite_bare · kind),
    hst.withModel ?_⟩
  rw [TypeModel.bare_addComposite, TypeModel.bare_addComposite, hst.model, h]

/-- Building goes in lockstep if, from the same place, resolving node shapes does. -/
theorem lockstep_build (n n' : Namer) {resolve resolve' : NodeType → NodeResolver g}
    (hresolve : ∀ place r, Lockstep State.Resembles Eq (resolve place r) (resolve' place r)) :
    Lockstep State.Resembles Eq
      (build n shape resolve fun place => inlineType (resolve place) [])
      (build n' shape resolve' fun place => inlineType (resolve' place) []) := by
  have hR := parallel_resembles g n n'
  unfold build
  split
  · next kind members _ =>
    have hplace := lockstep_addComposite kind (Namer.bare_objectComposite n n' shape)
    dsimp only
    split
    · exact (lockstep_throw _).bind_same fun _ => hplace.bind_same fun id =>
        (lockstep_fillComposite hR (hresolve _) kind id members).bind_same fun _ =>
          lockstep_pure rfl
    · exact hplace.bind_same fun id =>
        (lockstep_fillComposite hR (hresolve _) kind id members).bind_same fun _ =>
          lockstep_pure rfl
  · refine (lockstep_addObject (Namer.bare_objectType n n' shape)).bind_same fun id => ?_
    exact (lockstep_fillObject hR (hresolve (.object id))
      (lockstep_inlineType hR (hresolve (.object id)) [] {}) id).bind_same fun _ =>
        lockstep_pure rfl

/-- Both transactions go back to the same extent. -/
theorem lockstep_transaction {step step' : Resolver NodeType}
    (h : Lockstep State.Resembles Eq step step') :
    Lockstep State.Resembles Eq (transaction step) (transaction step') := by
  intro s t hst
  rw [outcome_transaction, outcome_transaction, hst.extent]
  obtain ⟨a, a', u, v, hrun, hrun', ha, huv⟩ | ⟨e, u, v, hrun, hrun', huv⟩ := h.cases hst
  · rw [hrun, hrun']
    exact ⟨ha, huv⟩
  · rw [hrun, hrun']
    exact ⟨rfl, huv.rollback _⟩

/-- The same events are told. -/
theorem lockstep_tell (e : Event) : Lockstep State.Resembles Eq (report e) (report e) :=
  lockstep_modify fun _ _ hst => hst.log e

theorem lockstep_once (identifier : Term) {step step' : Resolver NodeType}
    (h : Lockstep State.Resembles Eq step step') :
    Lockstep State.Resembles Eq (once identifier step) (once identifier step') := by
  refine lockstep_get.bind fun s t hst => ?_
  rw [hst.resolved? identifier]
  cases t.resolved? identifier with
  | some type => exact (lockstep_tell _).bind_same fun _ => lockstep_pure rfl
  | none =>
    refine (lockstep_tell _).bind_same fun _ => (lockstep_transaction h).bind_same fun type => ?_
    refine (lockstep_modify fun u v huv => ?_).bind_same fun _ => lockstep_pure rfl
    exact huv.record identifier type

end Building

/-! ## Graphs with other prefixes -/

section Prefixes

open ShapesGraph

variable {g : ShapesGraph} {prefixes prefixes' : PrefixMap} {settings settings' : Settings}

/-- Building asks for prefixes only by way of the namer. -/
theorem build_withPrefixes (n : Namer) (shape : Shape) (resolve : NodeType → NodeResolver g)
    (typer : NodeType → ValueTyper g) :
    build (g := g.withPrefixes prefixes) n shape resolve typer =
      build (g := g) n shape resolve typer := by
  have hmember : ∀ place,
      addMember (g := g.withPrefixes prefixes) shape (resolve place) =
        addMember (g := g) shape (resolve place) := by
    intro place
    funext met member
    unfold addMember
    rw [member?_reissue]
    cases g.member? member <;> rfl
  have hobject : ∀ place id,
      fillObject (g := g.withPrefixes prefixes) n shape id (resolve place) (typer place) =
        fillObject (g := g) n shape id (resolve place) (typer place) := by
    intro place id
    unfold fillObject
    rw [propertyShapes_reissue]
    rfl
  unfold build fillComposite
  simp only [hmember, hobject]

/-- So does resolving a node shape. -/
theorem nodeShape_withPrefixes (scope : Scope) (shape : g.Member) :
    nodeShape (g.withPrefixes prefixes) settings scope shape =
      match scope.place? shape.1.identifier with
      | some place => do
        report (.known shape.1.identifier)
        return place
      | none =>
        once shape.1.identifier <|
          build (g := g) ⟨prefixes, settings⟩ shape.1
            (fun place =>
              nodeShape (g.withPrefixes prefixes) settings
                (scope.enter shape.1.identifier place))
            (fun place =>
              inlineType (g := g)
                (nodeShape (g.withPrefixes prefixes) settings
                  (scope.enter shape.1.identifier place)) []) := by
  have htyper : ∀ resolve : NodeResolver g,
      inlineType (g := g.withPrefixes prefixes) resolve [] = inlineType (g := g) resolve [] := by
    intro resolve
    funext inherited s
    exact inlineType_reissue (g := g) (fun _ => Iff.rfl) [] inherited s
  rw [nodeShape_eq, build_withPrefixes (g := g)]
  simp only [htyper]
  rfl

/-- By induction on what can still be entered: a node shape is resolved in lockstep if the
node shapes within it are. -/
theorem lockstep_nodeShape (scope : Scope) (shape : g.Member) :
    Lockstep State.Resembles Eq (nodeShape (g.withPrefixes prefixes) settings scope shape)
      (nodeShape (g.withPrefixes prefixes') settings' scope shape) := by
  induction hn : scope.nodeMeasure g using Nat.strongRecOn generalizing scope shape with
  | ind n ih =>
    rw [nodeShape_withPrefixes, nodeShape_withPrefixes]
    cases hplace : scope.place? shape.1.identifier with
    | some place => exact (lockstep_tell _).bind_same fun _ => lockstep_pure rfl
    | none =>
      refine lockstep_once _ (lockstep_build _ _ fun place r => ?_)
      exact ih _ (hn ▸ Scope.nodeMeasure_enter_lt hplace place) _ r rfl

variable (g prefixes prefixes' settings settings')

/-- The graphs declare the same node shapes, so that they are resolved in lockstep. -/
theorem lockstep_resolveAll :
    Lockstep State.Resembles (fun m m' => ∃ s t, State.Resembles s t ∧ m = s.model ∧ m' = t.model)
      (resolveAll (g.withPrefixes prefixes) settings)
      (resolveAll (g.withPrefixes prefixes') settings') :=
  lockstep_resolveAllBy (parallel_resembles g ⟨prefixes, settings⟩ ⟨prefixes', settings'⟩)
    (lockstep_nodeShape .outermost)

end Prefixes

/-- Prefixes and settings decide nothing but chosen names: whatever they are, the same
shapes, declared node shapes and class hierarchy give the same error, or the same model
but for the names and what the settings say, and the same events. -/
theorem names_decide_nothing (g : ShapesGraph) (prefixes prefixes' : PrefixMap)
    (settings settings' : Settings) :
    let run := resolveGraph (g.withPrefixes prefixes) settings
    let run' := resolveGraph (g.withPrefixes prefixes') settings'
    ((∃ e, run.1 = .error e ∧ run'.1 = .error e) ∨
      ∃ m m', run.1 = .ok m ∧ run'.1 = .ok m' ∧ m.bare = m'.bare) ∧
    run.2.events = run'.2.events := by
  intro run run'
  have hlock := lockstep_resolveAll g prefixes prefixes' settings settings'
  obtain ⟨_, _, t, t', hrun, hrun', ⟨u, u', hu, rfl, rfl⟩, ht⟩ | ⟨e, t, t', hrun, hrun', ht⟩ :=
    hlock.cases (rfl : State.empty.bare = State.empty.bare)
  · have hleft : run = (.ok u.model, t) := hrun
    have hright : run' = (.ok u'.model, t') := hrun'
    rw [hleft, hright]
    exact ⟨.inr ⟨u.model, u'.model, rfl, rfl, hu.model⟩, ht.events⟩
  · have hleft : run = (.error e, t) := hrun
    have hright : run' = (.error e, t') := hrun'
    rw [hleft, hright]
    exact ⟨.inl ⟨e, rfl, rfl⟩, ht.events⟩

end Resolver

end ShaclTypes
