import ShaclTypes.Proofs.Soundness
set_option autoImplicit false

/-!
# Resolution is all or nothing

A node shape that cannot be resolved leaves no trace, however much was resolved
on the way, and one that can be resolved only adds to what was there.  This holds
at the top as well as in the middle of other resolutions, where the places of
the node shapes around are taken but not filled: `Reachable` describes all of
these moments, and `resolution_all_or_nothing` is about every one of them.
-/

namespace ShaclTypes

open ShaclTypes.Rdf

namespace Resolver

open ShapesGraph

variable {g : ShapesGraph} {settings : Settings}

/-! ## Moments of a resolution -/

/-- The moments at which a shape can come to be resolved: a scope with the state
that goes with it.  A moment is reached from another when a node shape, property
shape or inline shape has been resolved or has failed to, when an inline shape is
walked into, when a place is taken for a node shape that has none, and when the
entry in the innermost place is filled further. -/
inductive Reachable (g : ShapesGraph) (settings : Settings) : Scope → State → Prop where
  | start : Reachable g settings .outermost .empty
  | reported {scope : Scope} {s : State} (e : Event) (h : Reachable g settings scope s) :
      Reachable g settings scope (s.log e)
  | nodeShape {scope : Scope} {s : State} (shape : g.Member)
      (h : Reachable g settings scope s) :
      Reachable g settings scope (outcome (nodeShape g settings scope shape) s).2
  | property {scope : Scope} {s : State} (shape : g.Member) (h : Reachable g settings scope s) :
      Reachable g settings scope
        (outcome (property (namer g settings) (valueType g settings scope) shape) s).2
  | valueType {scope : Scope} {s : State} (inherited : Inherited) (shape : g.Member)
      (h : Reachable g settings scope s) :
      Reachable g settings scope (outcome (valueType g settings scope inherited shape) s).2
  | walked {scope : Scope} {s : State} (shape : g.Member) (h : Reachable g settings scope s) :
      Reachable g settings (scope.walk shape.1.identifier) s
  | placedObject {scope : Scope} {s : State} (shape : g.Member)
      (hobject : shape.1.constraints.nodeComposition? = none)
      (hplace : scope.place? shape.1.identifier = none)
      (hresolved : s.resolved? shape.1.identifier = none) (h : Reachable g settings scope s) :
      Reachable g settings (scope.enter shape.1.identifier (.object s.model.nextObject))
        { s with model := s.model.addObject ((namer g settings).objectType shape.1) }
  | placedComposite {scope : Scope} {s : State} (shape : g.Member) {kind : CompositeKind}
      {members : List Term}
      (hcomposite : shape.1.constraints.nodeComposition? = some (kind, members))
      (hplace : scope.place? shape.1.identifier = none)
      (hresolved : s.resolved? shape.1.identifier = none) (h : Reachable g settings scope s) :
      Reachable g settings
        (scope.enter shape.1.identifier (.composite kind (s.model.nextComposite kind)))
        { s with
          model := s.model.addComposite kind ((namer g settings).objectComposite shape.1) }
  | filledObject {scope : Scope} {s : State} {identifier : Term} {id : ObjectId}
      {f : ObjectType → ObjectType} (hf : ∀ o, (f o).unfilled = o.unfilled)
      (h : Reachable g settings (scope.enter identifier (.object id)) s) :
      Reachable g settings (scope.enter identifier (.object id))
        { s with model := s.model.modifyObject id f }
  | filledComposite {scope : Scope} {s : State} {identifier : Term} {kind : CompositeKind}
      {id : CompositeId} {ids : List ObjectId} {model : TypeModel}
      (hfill : s.model.fillComposite kind id ids = .ok model)
      (h : Reachable g settings (scope.enter identifier (.composite kind id)) s) :
      Reachable g settings (scope.enter identifier (.composite kind id))
        { s with model := model }

/-- Any shape of a graph. -/
def AnyMember (_ : g.Member) : Prop := True

theorem sound_empty (n : Namer) (admitted : g.Member → Prop) :
    Sound n admitted [] State.empty := by
  refine ⟨List.nodup_nil, by simp [ledger, State.empty], ?_⟩
  intro type owner howner
  cases type with
  | object id => simp [TypeModel.owner?, TypeModel.object?, State.empty] at howner
  | composite kind id =>
    cases kind <;>
      simp [TypeModel.owner?, TypeModel.composite?, TypeModel.composites, State.empty] at howner

section Keeping

variable {admitted : g.Member → Prop} {s : State}

/-- Being sound and having all that a state had. -/
def SoundSince (n : Namer) (admitted : g.Member → Prop) (places : List (Term × NodeType))
    (s t : State) : Prop := Sound n admitted places t ∧ s.Extends t

theorem keeps_nodeShape (scope : Scope) (hfound : ∀ r : g.Member, Found r → admitted r)
    {shape : g.Member} (hadmitted : admitted shape) :
    Keeps (SoundSince (namer g settings) admitted scope.places s)
      (nodeShape g settings scope shape) := by
  refine Ensures.of_forall fun t ht => ?_
  refine (nodeShape_sound hfound scope shape hadmitted t ht.1).mono (fun _ h => h) ?_ ?_
  · exact fun _ u hu => ⟨hu.1, ht.2.trans hu.2.1⟩
  · exact fun _ u hu => ⟨ht.1.of_sameTypes hu, ht.2.trans hu.extends⟩

theorem keeps_valueType (scope : Scope) (hfound : ∀ r : g.Member, Found r → admitted r)
    (inherited : Inherited) (shape : g.Member) :
    Keeps (SoundSince (namer g settings) admitted scope.places s)
      (valueType g settings scope inherited shape) := by
  rw [valueType_eq_inlineType]
  exact keeps_inlineType (fun r hr => keeps_nodeShape scope hfound (hfound r hr))
    (fun t e ht => ⟨ht.1.log e, ht.2.log e⟩) _ _ _

theorem keeps_resolveProperty (scope : Scope) (hfound : ∀ r : g.Member, Found r → admitted r)
    (shape : g.Member) :
    Keeps (SoundSince (namer g settings) admitted scope.places s)
      (property (namer g settings) (valueType g settings scope) shape) :=
  keeps_property (keeps_valueType scope hfound {} shape)

end Keeping

/-- Every moment of a resolution is sound. -/
theorem Reachable.sound {scope : Scope} {s : State} (h : Reachable g settings scope s) :
    Sound (namer g settings) (AnyMember (g := g)) scope.places s := by
  have hfound : ∀ r : g.Member, Found r → AnyMember r := fun _ _ => trivial
  induction h with
  | start => exact sound_empty _ _
  | reported e h ih => exact ih.log e
  | nodeShape shape h ih =>
    exact ((keeps_nodeShape _ hfound trivial).apply ⟨ih, .refl _⟩).1
  | property shape h ih =>
    exact ((keeps_resolveProperty _ hfound shape).apply ⟨ih, .refl _⟩).1
  | valueType inherited shape h ih =>
    exact ((keeps_valueType _ hfound inherited shape).apply ⟨ih, .refl _⟩).1
  | walked shape h ih => exact ih
  | placedObject shape hobject hplace hresolved h ih =>
    have hplaced := ensures_addObject ih trivial (not_mem_ledger hplace hresolved) hobject
      fun _ _ => True
    exact (hplaced.ok rfl (outcome_addObject _ _)).1.sound
  | placedComposite shape hcomposite hplace hresolved h ih =>
    have hplaced := ensures_addComposite ih trivial (not_mem_ledger hplace hresolved) hcomposite
      fun _ _ => True
    exact (hplaced.ok rfl (outcome_addComposite _ _ _)).1.sound
  | filledObject hf h ih => exact ih.of_outline_eq rfl (TypeModel.outline_modifyObject _ _ hf)
  | filledComposite hfill h ih => exact ih.of_outline_eq rfl (TypeModel.outline_fillComposite hfill)

/-! ## What is at hand at a moment -/

/-- What a resolution has at hand: the model, what every identifier is known as,
be it resolved or under resolution, and the inline shapes that are being typed.
The trail belongs to the scope, which is handed to a step and not handed back; where it is
a field of the state, `fields` has it from there. -/
structure View where
  model : TypeModel
  known : Term → Option NodeType
  trail : List Term

/-- What is at hand in a scope and a state. -/
def view (scope : Scope) (s : State) : View where
  model := s.model
  known identifier := scope.place? identifier <|> s.resolved? identifier
  trail := scope.trail

/-- The second view has all that the first has, unchanged. -/
structure View.Appends (v w : View) : Prop where
  model : v.model.Grows w.model
  known : ∀ identifier type, v.known identifier = some type → w.known identifier = some type
  trail : w.trail = v.trail

theorem view_eq_of_sameTypes {scope : Scope} {s t : State} (h : s.SameTypes t) :
    view scope t = view scope s := by
  simp only [view, State.resolved?, h.model, h.resolved]

theorem known_eq_lookup (scope : Scope) (s : State) (identifier : Term) :
    (view scope s).known identifier = (ledger scope.places s).lookup identifier := by
  rw [ledger, List.lookup_append, Option.or_eq_orElse]
  rfl

/-- A step from a sound state to one that extends it loses nothing that is at hand. -/
theorem SoundSince.appends {n : Namer} {admitted : g.Member → Prop} {scope : Scope}
    {s t : State} (hs : Sound n admitted scope.places s)
    (ht : SoundSince n admitted scope.places s t) : (view scope s).Appends (view scope t) := by
  refine ⟨ht.2.model, fun identifier type htype => ?_, rfl⟩
  rw [known_eq_lookup, hs.lookup_eq_some] at htype
  rw [known_eq_lookup, ht.1.lookup_eq_some]
  rcases List.mem_append.1 htype with hplace | hresolved
  · exact List.mem_append_left _ hplace
  · exact List.mem_append_right _ (ht.2.mem_resolved hresolved)

/-! ## All or nothing -/

/-- At every moment of a resolution: a node shape that fails to resolve leaves
the model, what is known and the trail exactly as they were; one that resolves
leaves every earlier entry and everything known as it was; and a property shape
does so too, whether it resolves or not. -/
theorem resolution_all_or_nothing {scope : Scope} {s : State}
    (h : Reachable g settings scope s) (shape : g.Member) :
    (∀ e t, outcome (nodeShape g settings scope shape) s = (.error e, t) →
      view scope t = view scope s ∧ t.resolved = s.resolved) ∧
    (∀ type t, outcome (nodeShape g settings scope shape) s = (.ok type, t) →
      (view scope s).Appends (view scope t)) ∧
    (∀ result t,
      outcome (property (namer g settings) (valueType g settings scope) shape) s = (result, t) →
      (view scope s).Appends (view scope t)) := by
  have hfound : ∀ r : g.Member, Found r → AnyMember r := fun _ _ => trivial
  have hsound := h.sound
  have hspec := nodeShape_sound hfound scope shape trivial s hsound
  refine ⟨?_, ?_, ?_⟩
  · intro e t hrun
    have hsame := hspec.error rfl hrun
    exact ⟨view_eq_of_sameTypes hsame, hsame.resolved⟩
  · intro type t hrun
    have hok := hspec.ok rfl hrun
    exact SoundSince.appends hsound ⟨hok.1, hok.2.1⟩
  · intro result t hrun
    have hkept := (keeps_resolveProperty scope hfound shape).apply ⟨hsound, .refl s⟩
    rw [hrun] at hkept
    exact SoundSince.appends hsound hkept

/-! The owner of a kennel has a place.  A litter is of a puppy and of something that there
is no shape for; so the puppy is resolved, and then the litter fails. -/

/-- Owners. -/
def owner : Shape := { identifier := .blank "owner" }

/-- Puppies. -/
def puppy : Shape := { identifier := .blank "puppy" }

/-- Litters. -/
def litter : Shape where
  identifier := .blank "litter"
  constraints := { allOf := [puppy.identifier, .blank "stray"] }

/-- The graph of the three. -/
def kennel : ShapesGraph where
  shapes := [owner, puppy, litter]
  declared := [owner.identifier, puppy.identifier, litter.identifier]
  hierarchy := .empty
  prefixes := .empty

/-- Litters, in their graph. -/
def litterMember : kennel.Member := ⟨litter, by simp [kennel]⟩

/-- The scope within an owner. -/
def withinOwner : Scope := Scope.outermost.enter owner.identifier (.object ⟨0⟩)

/-- The state in which an owner has a place. -/
def ownerPlaced : State :=
  { State.empty with
    model := State.empty.model.addObject ((namer kennel .standard).objectType owner) }

theorem resolution_all_or_nothing_within_owner :
    Reachable kennel .standard withinOwner ownerPlaced ∧
      ∃ e t, outcome (nodeShape kennel .standard withinOwner litterMember) ownerPlaced =
          (.error e, t) ∧
        t.events.toList = [.resolving litter.identifier, .resolving puppy.identifier,
          .memberUnknown litter.identifier (.blank "stray")] ∧
        view withinOwner t = view withinOwner ownerPlaced ∧ t.resolved = ownerPlaced.resolved := by
  have h : Reachable kennel .standard withinOwner ownerPlaced :=
    .placedObject ⟨owner, by simp [kennel]⟩ rfl rfl rfl .start
  have hfails : (outcome (nodeShape kennel .standard withinOwner litterMember)
      ownerPlaced).1.toOption.isNone = true := by decide +kernel
  have hevents : (outcome (nodeShape kennel .standard withinOwner litterMember)
      ownerPlaced).2.events.toList = [.resolving litter.identifier, .resolving puppy.identifier,
        .memberUnknown litter.identifier (.blank "stray")] := by decide +kernel
  cases hrun : outcome (nodeShape kennel .standard withinOwner litterMember) ownerPlaced with
  | mk result t =>
    rw [hrun] at hfails hevents
    cases result with
    | ok type => cases hfails
    | error e =>
      have hnothing := (resolution_all_or_nothing h litterMember).1 e t hrun
      exact ⟨h, e, t, rfl, hevents, hnothing⟩

end Resolver

end ShaclTypes
