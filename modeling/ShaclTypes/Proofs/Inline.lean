import ShaclTypes.Proofs.Invariant
import ShaclTypes.Resolution.Basic
set_option autoImplicit false

/-!
# Resolution in two layers

Node shapes and value types are resolved by one another, but a node shape takes
no notice of the inline shapes around it.  So the two recursions can be had one
after the other: `inlineType` types inline shapes with a given way to resolve
node shapes, and `nodeShape_eq` resolves node shapes with it.  What is true of
every way to resolve node shapes is then proved of inline shapes once and for
all, by induction on the trail alone.
-/

namespace ShaclTypes

open ShaclTypes.Rdf

/-! ## Shapes that a graph leads to -/

namespace ShapesGraph

variable {g : ShapesGraph}

/-- A shape that the graph has under its identifier.  It is not hidden by a later
shape with the same one. -/
def Found (s : g.Member) : Prop := g.member? s.1.identifier = some s

/-- An identifier stands for one shape at most. -/
theorem Found.ext {r s : g.Member} (hr : Found r) (hs : Found s)
    (h : r.1.identifier = s.1.identifier) : r = s := by
  rw [Found, h] at hr
  exact Option.some.inj (hr.symm.trans hs)

theorem found_of_member? {t : Term} {s : g.Member} (h : g.member? t = some s) : Found s := by
  unfold Found
  rw [identifier_of_member? h, h]

theorem found_of_nodeShape? {t : Term} {s : g.Member} (h : g.nodeShape? t = some s) :
    Found s := by
  unfold nodeShape? at h
  split at h
  · exact found_of_member? h
  · cases h

theorem found_of_mem_relatives {kinship : Kinship} {s : Shape} {r : g.Member}
    (h : r ∈ g.relatives kinship s) : Found r := by
  unfold relatives at h
  split at h
  · obtain ⟨t, -, ht⟩ := List.mem_filterMap.1 (List.mem_filter.1 h).1
    exact found_of_nodeShape? ht
  · cases h

end ShapesGraph

namespace Resolver

open ShapesGraph

variable {g : ShapesGraph}

/-! ## Two layers -/

/-- The type of the values of a shape, with a given way to resolve node shapes. -/
def inlineType (resolve : NodeResolver g) (trail : List Term) (inherited : Inherited)
    (shape : g.Member) : Resolver ValueType :=
  if shape.1.identifier ∈ trail then throw (.selfReference shape.1.identifier)
  else
    typeWith inherited shape.1 resolve fun inherited s =>
      inlineType resolve (shape.1.identifier :: trail) inherited s
termination_by remaining g.identifiers trail
decreasing_by
  next fresh =>
  exact remaining_lt (List.subset_cons_self _ _) shape.mem_identifiers fresh List.mem_cons_self

variable (settings : Settings)

/-- A node shape takes no notice of the inline shapes around it. -/
theorem nodeShape_congr {scope scope' : Scope} (h : scope.places = scope'.places) :
    nodeShape g settings scope = nodeShape g settings scope' := by
  obtain ⟨places, trail⟩ := scope
  obtain ⟨places', trail'⟩ := scope'
  cases h
  funext shape
  unfold nodeShape
  rfl

/-- Typing a shape is typing an inline shape with the node shapes of the scope. -/
theorem valueType_eq_inlineType (scope : Scope) (inherited : Inherited) (shape : g.Member) :
    valueType g settings scope inherited shape =
      inlineType (nodeShape g settings scope) scope.trail inherited shape := by
  induction hn : remaining g.identifiers scope.trail using Nat.strongRecOn
    generalizing scope inherited shape with
  | ind n ih =>
    rw [valueType, inlineType]
    split
    · rfl
    · next fresh =>
      have hnode : nodeShape g settings (scope.walk shape.1.identifier) =
          nodeShape g settings scope := nodeShape_congr settings rfl
      have hless : remaining g.identifiers (scope.walk shape.1.identifier).trail < n :=
        hn ▸ remaining_lt (List.subset_cons_self _ _) shape.mem_identifiers fresh
          List.mem_cons_self
      congr 1
      funext inherited' s
      rw [ih _ hless (scope.walk shape.1.identifier) inherited' s rfl, hnode]
      rfl

/-- A node shape that has a place is known, and one that has none is built once,
with the place kept for it. -/
theorem nodeShape_eq (scope : Scope) (shape : g.Member) :
    nodeShape g settings scope shape =
      match scope.place? shape.1.identifier with
      | some place => do
        report (.known shape.1.identifier)
        return place
      | none =>
        once shape.1.identifier <|
          build (namer g settings) shape.1
            (fun place => nodeShape g settings (scope.enter shape.1.identifier place))
            (fun place =>
              inlineType (nodeShape g settings (scope.enter shape.1.identifier place)) []) := by
  rw [nodeShape]
  split
  · next place h => rw [h]
  · next h =>
    rw [h]
    simp only [valueType_eq_inlineType, Scope.enter]

/-- What resolving node shapes ensures, by induction on what can still be entered: it
holds of a node shape that has a place or is resolved, and building a node shape
ensures it if resolving what is found within the node shape does. -/
theorem nodeShape_induction (before : Scope → g.Member → State → Prop)
    (after : Scope → g.Member → State → NodeType → State → Prop)
    (failed : Scope → g.Member → State → ResolutionError → State → Prop)
    (hplaced : ∀ scope shape s place, before scope shape s →
      scope.place? shape.1.identifier = some place →
      after scope shape s place (s.log (.known shape.1.identifier)))
    (hknown : ∀ scope shape s type, before scope shape s →
      s.resolved? shape.1.identifier = some type →
      after scope shape s type (s.log (.known shape.1.identifier)))
    (hbuild : ∀ scope shape s, before scope shape s →
      scope.place? shape.1.identifier = none → s.resolved? shape.1.identifier = none →
      (∀ place r t, before (scope.enter shape.1.identifier place) r t →
        Ensures (fun u => u = t) (nodeShape g settings (scope.enter shape.1.identifier place) r)
          (after (scope.enter shape.1.identifier place) r t)
          (failed (scope.enter shape.1.identifier place) r t)) →
      Ensures (fun t => t = s.log (.resolving shape.1.identifier))
        (build (namer g settings) shape.1
          (fun place => nodeShape g settings (scope.enter shape.1.identifier place))
          (fun place =>
            inlineType (nodeShape g settings (scope.enter shape.1.identifier place)) []))
        (fun type t => after scope shape s type (t.record shape.1.identifier type))
        (fun e t => failed scope shape s e (t.rollback s.model.extent)))
    (scope : Scope) (shape : g.Member) (s : State) (h : before scope shape s) :
    Ensures (fun t => t = s) (nodeShape g settings scope shape) (after scope shape s)
      (failed scope shape s) := by
  induction hn : scope.nodeMeasure g using Nat.strongRecOn generalizing scope shape s with
  | ind n ih =>
    subst hn
    rw [nodeShape_eq]
    cases hplace : scope.place? shape.1.identifier with
    | some place =>
      have hreport : Ensures (fun t => t = s) (report (.known shape.1.identifier))
          (fun _ t => t = s.log (.known shape.1.identifier)) (failed scope shape s) :=
        ensures_report fun t ht => ht ▸ rfl
      exact hreport.bind fun _ => ensures_pure fun t ht => ht ▸ hplaced scope shape s place h hplace
    | none =>
      refine ensures_once (fun type htype => hknown scope shape s type h htype) fun hresolved => ?_
      refine hbuild scope shape s h hplace hresolved fun place r t ht => ?_
      exact ih _ (Scope.nodeMeasure_enter_lt hplace place) _ r t ht rfl

/-- Resolving a property shape, with a given way to resolve node shapes. -/
theorem resolveProperty_eq (scope : Scope) (shape : g.Member) :
    property (namer g settings) (valueType g settings scope) shape =
      property (namer g settings)
        (inlineType (nodeShape g settings scope) scope.trail) shape := by
  have htyper : valueType g settings scope =
      inlineType (nodeShape g settings scope) scope.trail := by
    funext inherited s
    exact valueType_eq_inlineType settings scope inherited s
  rw [htyper]

end Resolver

end ShaclTypes
