import ShaclTypes.Proofs.Upkeep
import ShaclTypes.Resolution.Threaded
set_option autoImplicit false

/-!
# Resolution under supervision

Resolution as it runs: a call of a node shape or of an inline shape puts an activation
on the call stack and takes it off at the end, and nothing but the calls themselves
says how deep they go.  Here it runs under supervision.  If it goes deeper than a given
depth, or if an activation is not in order (`Orderly`), an alarm is raised, and what
happens then is left open.

Supervised or not, resolution gives the same (`superviseNode_eq`), whatever the alarm
would do.  So the alarm is never raised: on every graph the calls go no deeper than
`callDepth`, and at every moment the active node shapes, and within each of them the
active inline shapes, are different from one another.
-/

namespace ShaclTypes

open ShaclTypes.Rdf

namespace Resolver

/-! ## Call stacks -/

/-- An active node shape, with the inline shapes that are active within it, the
innermost first.  Outside of all node shapes there may be inline shapes too. -/
structure Frame where
  nodeShape : Option Term
  inline : List Term
  deriving DecidableEq, Repr

/-- A node shape becomes active. -/
def activate (frames : List Frame) (identifier : Term) : List Frame :=
  ⟨some identifier, []⟩ :: frames

/-- An inline shape becomes active within the innermost node shape. -/
def activateInline (frames : List Frame) (identifier : Term) : List Frame :=
  match frames with
  | [] => [⟨none, [identifier]⟩]
  | frame :: outer => { frame with inline := identifier :: frame.inline } :: outer

/-- The active node shapes are pairwise distinct, and so are the inline shapes that are
active within one of them. -/
def Orderly (frames : List Frame) : Prop :=
  (frames.filterMap Frame.nodeShape).Nodup ∧ ∀ frame ∈ frames, frame.inline.Nodup

instance (frames : List Frame) : Decidable (Orderly frames) :=
  inferInstanceAs (Decidable (_ ∧ _))

/-! ## Supervised resolution -/

variable (g : ShapesGraph) (settings : Settings) (alarm : Alarm)

mutual

/-- Resolve a node shape under supervision, to a depth. -/
def superviseNode : Nat → List Frame → Scope → g.Member → Resolver NodeType
  | 0, _, _, _ => alarm.node
  | depth + 1, frames, scope, shape =>
    match scope.place? shape.1.identifier with
    | some place => do
      report (.known shape.1.identifier)
      return place
    | none =>
      once shape.1.identifier <|
        if Orderly (activate frames shape.1.identifier) then
          build (namer g settings) shape.1
            (fun place s => superviseNode depth (activate frames shape.1.identifier)
              (scope.enter shape.1.identifier place) s)
            (fun place inherited s => superviseType depth (activate frames shape.1.identifier)
              (scope.enter shape.1.identifier place) inherited s)
        else alarm.node

/-- Type a shape under supervision, to a depth. -/
def superviseType : Nat → List Frame → Scope → Inherited → g.Member → Resolver ValueType
  | 0, _, _, _, _ => alarm.type
  | depth + 1, frames, scope, inherited, shape =>
    if shape.1.identifier ∈ scope.trail then throw (.selfReference shape.1.identifier)
    else if Orderly (activateInline frames shape.1.identifier) then
      typeWith inherited shape.1
        (fun s => superviseNode depth (activateInline frames shape.1.identifier)
          (scope.walk shape.1.identifier) s)
        (fun inherited s => superviseType depth (activateInline frames shape.1.identifier)
          (scope.walk shape.1.identifier) inherited s)
    else alarm.type

end

/-! ## Call stacks and scopes -/

/-- The scope knows what is active. -/
structure Shows (scope : Scope) (frames : List Frame) : Prop where
  orderly : Orderly frames
  nodeShapes : frames.filterMap Frame.nodeShape = scope.underway
  inline : (frames.head?.elim [] Frame.inline) = scope.trail

namespace Shows

variable {g : ShapesGraph} {scope : Scope} {frames : List Frame} {shape : g.Member}

theorem outermost : Shows .outermost [] where
  orderly := ⟨List.nodup_nil, fun _ h => by cases h⟩
  nodeShapes := rfl
  inline := rfl

/-- A node shape that has no place in the scope is not active. -/
theorem activate (h : Shows scope frames) (hplace : scope.place? shape.1.identifier = none)
    (place : NodeType) :
    Shows (scope.enter shape.1.identifier place)
      (Resolver.activate frames shape.1.identifier) := by
  have hfresh : shape.1.identifier ∉ scope.underway := by
    rw [Scope.mem_underway, hplace]
    simp
  have hnodeShapes : (Resolver.activate frames shape.1.identifier).filterMap Frame.nodeShape =
      shape.1.identifier :: scope.underway :=
    congrArg (shape.1.identifier :: ·) h.nodeShapes
  refine ⟨⟨?_, fun frame hframe => ?_⟩, hnodeShapes, rfl⟩
  · rw [hnodeShapes, ← h.nodeShapes]
    exact List.nodup_cons.2 ⟨h.nodeShapes ▸ hfresh, h.orderly.1⟩
  · rcases List.mem_cons.1 hframe with rfl | houter
    · exact List.nodup_nil
    · exact h.orderly.2 frame houter

/-- An inline shape that is not on the trail is not active within the node shape. -/
theorem activateInline (h : Shows scope frames) (hfresh : shape.1.identifier ∉ scope.trail) :
    Shows (scope.walk shape.1.identifier)
      (Resolver.activateInline frames shape.1.identifier) := by
  rw [← h.inline] at hfresh
  cases frames with
  | nil =>
    refine ⟨⟨List.nodup_nil, fun frame hframe => ?_⟩, h.nodeShapes, ?_⟩
    · obtain rfl := List.mem_singleton.1 hframe
      exact List.nodup_singleton _
    · exact congrArg (shape.1.identifier :: ·) h.inline
  | cons frame outer =>
    have hnodeShapes : (Resolver.activateInline (frame :: outer) shape.1.identifier).filterMap
        Frame.nodeShape = (frame :: outer).filterMap Frame.nodeShape := rfl
    refine ⟨⟨hnodeShapes ▸ h.orderly.1, fun frame' hframe' => ?_⟩, h.nodeShapes, ?_⟩
    · rcases List.mem_cons.1 hframe' with rfl | houter
      · exact List.nodup_cons.2 ⟨hfresh, h.orderly.2 frame List.mem_cons_self⟩
      · exact h.orderly.2 frame' (List.mem_cons_of_mem frame houter)
    · exact congrArg (shape.1.identifier :: ·) h.inline

end Shows

/-! ## No alarm -/

section NoAlarm

variable {g : ShapesGraph} {settings : Settings} {alarm : Alarm}

/-- Supervision makes no difference to a depth that is enough. -/
theorem supervise_eq (depth : Nat) :
    (∀ frames scope (shape : g.Member), Shows scope frames → scope.nodeMeasure g < depth →
      superviseNode g settings alarm depth frames scope shape = nodeShape g settings scope shape) ∧
    (∀ frames scope inherited (shape : g.Member), Shows scope frames →
      scope.typeMeasure g < depth →
      superviseType g settings alarm depth frames scope inherited shape =
        valueType g settings scope inherited shape) := by
  induction depth with
  | zero => exact ⟨fun _ _ _ _ h => absurd h (by omega), fun _ _ _ _ _ h => absurd h (by omega)⟩
  | succ depth ih =>
    obtain ⟨ihnode, ihtype⟩ := ih
    refine ⟨fun frames scope shape hshows hdepth => ?_,
      fun frames scope inherited shape hshows hdepth => ?_⟩
    · rw [superviseNode, nodeShape]
      split
      · next place hplace => rw [hplace]
      · next hplace =>
        rw [hplace]
        have hactive := hshows.activate hplace
        simp only [if_pos (hactive default).orderly]
        congr 2
        · funext place r
          refine ihnode _ _ r (hactive place) ?_
          have := Scope.nodeMeasure_enter_lt hplace place
          omega
        · funext place inherited r
          refine ihtype _ _ inherited r (hactive place) ?_
          have := Scope.typeMeasure_enter_lt hplace place
          omega
    · rw [superviseType, valueType]
      split
      · rfl
      · next hfresh =>
        have hactive := hshows.activateInline hfresh
        rw [if_pos hactive.orderly]
        congr 1
        · funext r
          refine ihnode _ _ r hactive ?_
          rw [Scope.nodeMeasure_walk]
          have := Scope.nodeMeasure_lt_typeMeasure g scope
          omega
        · funext inherited r
          refine ihtype _ _ inherited r hactive ?_
          have := Scope.typeMeasure_walk_lt hfresh
          omega

/-- How deep the calls can go on a graph: for each node shape, and once more outside of
all of them, one call and one for each inline shape within it. -/
def callDepth (g : ShapesGraph) : Nat := (g.shapes.length + 1) * (g.shapes.length + 2)

theorem typeMeasure_outermost_lt (g : ShapesGraph) :
    Scope.outermost.typeMeasure g < callDepth g := by
  have hshapes : g.identifiers.length = g.shapes.length := List.length_map _
  have hnode := remaining_le_length g.identifiers Scope.outermost.underway
  have htrail := remaining_le_length g.identifiers Scope.outermost.trail
  have hmul := Nat.mul_le_mul_right (g.identifiers.length + 2) hnode
  have hdepth : callDepth g = g.shapes.length * (g.shapes.length + 2) + (g.shapes.length + 2) :=
    Nat.succ_mul _ _
  simp only [Scope.typeMeasure, Scope.nodeMeasure]
  rw [hshapes] at hmul htrail ⊢
  omega

variable (g settings alarm) (more : Nat)

/-- Node shapes are resolved without an alarm. -/
theorem superviseNode_eq :
    superviseNode g settings alarm (callDepth g + more) [] .outermost =
      resolveNodeShape g settings := by
  have henough := typeMeasure_outermost_lt g
  have hless := Scope.nodeMeasure_lt_typeMeasure g .outermost
  funext shape
  exact (supervise_eq _).1 _ _ shape .outermost (by omega)

/-- Property shapes are resolved without an alarm. -/
theorem superviseProperty_eq :
    property (namer g settings)
        (superviseType g settings alarm (callDepth g + more) [] .outermost) =
      resolveProperty g settings := by
  have henough := typeMeasure_outermost_lt g
  have htyper : superviseType g settings alarm (callDepth g + more) [] .outermost =
      valueType g settings .outermost := by
    funext inherited shape
    exact (supervise_eq _).2 _ _ inherited shape .outermost (by omega)
  funext shape
  rw [htyper, resolveProperty]

end NoAlarm

theorem resolveAllBy_resolveNodeShape (g : ShapesGraph) (settings : Settings) :
    resolveAllBy (resolveNodeShape g settings) = resolveAll g settings := rfl

/-! ## Self references -/

/-- If the error comes down to a self reference, then of a shape that does reach itself. -/
def RefersToItself (g : ShapesGraph) (e : ResolutionError) : Prop :=
  ∀ t, e.selfReference? = some t → g.ReachesItself t

theorem errorLaw_refersToItself (g : ShapesGraph) : ErrorLaw g (RefersToItself g) where
  other e he t ht := by
    rw [he] at ht
    cases ht
  member _ _ _ he t ht := he t ht
  selfReference t ht t' ht' := Option.some.inj ht' ▸ ht

theorem typeLaw_any (g : ShapesGraph) : TypeLaw g fun _ _ => True :=
  ⟨fun _ _ _ _ _ => trivial, fun _ _ _ _ => trivial, fun _ _ _ _ _ _ => trivial,
    fun _ _ _ _ _ _ _ => trivial, fun _ _ _ _ => trivial⟩

/-- Resolution ends on every graph, in every state: it is the supervised one, whatever
happens on an alarm, so that no alarm is raised.  And whatever is resolved after whatever
calls, a self reference is returned or reported only for a shape that reaches itself
through members that are typed in place. -/
theorem resolution_ends (g : ShapesGraph) (settings : Settings) :
    (∀ alarm more,
      superviseNode g settings alarm (callDepth g + more) [] .outermost =
        resolveNodeShape g settings ∧
      property (namer g settings)
          (superviseType g settings alarm (callDepth g + more) [] .outermost) =
        resolveProperty g settings ∧
      resolveAllBy (superviseNode g settings alarm (callDepth g + more) [] .outermost) =
        resolveAll g settings) ∧
    ∀ calls : List (Call g),
      let s := afterCalls settings calls
      (∀ event ∈ s.events.toList, event.Reports (RefersToItself g)) ∧
      (∀ shape e t, outcome (resolveNodeShape g settings shape) s = (.error e, t) →
        RefersToItself g e) ∧
      (∀ shape e t, outcome (resolveProperty g settings shape) s = (.error e, t) →
        RefersToItself g e) ∧
      ∀ result t, outcome (resolveAll g settings) s = (result, t) →
        (∀ e, result = .error e → RefersToItself g e) ∧
          ∀ event ∈ t.events.toList, event.Reports (RefersToItself g) := by
  refine ⟨fun alarm more => ⟨superviseNode_eq g settings alarm more,
    superviseProperty_eq g settings alarm more, ?_⟩, fun calls => ?_⟩
  · rw [superviseNode_eq, resolveAllBy_resolveNodeShape]
  intro s
  have hV := typeLaw_any g
  have hE := errorLaw_refersToItself g
  have h : Tended g settings (fun _ _ => True) (RefersToItself g) [] s :=
    tended_afterCalls hV hE calls
  refine ⟨h.honest, ?_, ?_, ?_⟩
  · exact fun shape e t hrun => ((ensures_tended_nodeShape hV hE shape).error h hrun).2
  · exact fun shape e t hrun => ((ensures_tended_property hV hE shape).error h hrun).2
  · intro result t hrun
    cases result with
    | ok m => exact ⟨fun _ he => (by cases he), ((resolveAll_upkeep hV hE).ok h hrun).2.honest⟩
    | error e =>
      obtain ⟨ht, he⟩ := (resolveAll_upkeep hV hE).error h hrun
      exact ⟨fun e' he' => Except.error.inj he' ▸ he, ht.honest⟩

end Resolver

end ShaclTypes
