import ShaclTypes.Proofs.Lockstep
import ShaclTypes.Proofs.Rollback
import ShaclTypes.Proofs.Supervision
set_option autoImplicit false

/-!
# Scope and state

`nodeShape` is handed a scope: the places of the node shapes around and the inline shapes
that are being typed.  `threadNode` is handed none and finds both in its state, where it
writes them and takes them back.  A state of the one goes with a scope and a state of the
other if it has on record what has a place or is resolved, and in progress what is on the
trail (`Threads`).

From such states the two go in lockstep (`lockstep_thread`), by induction on the depth,
which is enough as long as it is above what can still be entered.  So whatever is shown of
the scope is shown of the fields: rolling back undoes all that a failed node shape has
written into them (`threaded_all_or_nothing`), and on every graph the calls that only the
fields bound come to an end, with what resolution gives (`threading_agrees`).
-/

namespace ShaclTypes

open ShaclTypes.Rdf

namespace Resolver

open ShapesGraph

variable {g : ShapesGraph} {settings : Settings} {scope : Scope} {s t u v : State}

/-! ## What goes with a scope and a state -/

/-- The second state has all that the scope and the first state have: the same model and
events, on record what is resolved or has a place, and in progress what is on the trail. -/
structure Carries (scope : Scope) (s t : State) : Prop where
  model : t.model = s.model
  events : t.events = s.events
  recorded : t.resolved.Perm (ledger scope.places s)
  inProgress : t.inProgress = scope.trail

/-- The same of a sound state. -/
structure Threads (g : ShapesGraph) (settings : Settings) (scope : Scope) (s t : State) : Prop
    extends Carries scope s t where
  sound : Sound (namer g settings) (AnyMember (g := g)) scope.places s

theorem Carries.log (h : Carries scope s t) (e : Event) : Carries scope (s.log e) (t.log e) :=
  ⟨h.model, congrArg (·.push e) h.events, h.recorded, h.inProgress⟩

namespace Threads

variable (h : Threads g settings scope s t)
include h

theorem log (e : Event) : Threads g settings scope (s.log e) (t.log e) :=
  ⟨h.toCarries.log e, h.sound.log e⟩

/-- Only the outline of the model matters. -/
theorem withModel {m m' : TypeModel} (hm : m' = m) (houtline : m.outline = s.model.outline) :
    Threads g settings scope { s with model := m } { t with model := m' } :=
  ⟨⟨hm, h.events, h.recorded, h.inProgress⟩, h.sound.of_outline_eq rfl houtline⟩

/-- What is on record is sound without any places. -/
theorem sound_recorded : Sound (namer g settings) (AnyMember (g := g)) [] t :=
  h.sound.of_perm h.model h.recorded

/-- A node shape is on record as what it is in the ledger. -/
theorem resolved? (identifier : Term) :
    t.resolved? identifier = (ledger scope.places s).lookup identifier := by
  refine Option.ext fun type => ?_
  rw [h.sound.lookup_eq_some]
  exact h.sound_recorded.lookup_eq_some.trans h.recorded.mem_iff

theorem resolved?_of_place {identifier : Term} {place : NodeType}
    (hplace : scope.place? identifier = some place) : t.resolved? identifier = some place := by
  have hlookup : scope.places.lookup identifier = some place := hplace
  rw [h.resolved?, ledger, List.lookup_append, hlookup, Option.some_or]

theorem resolved?_of_not_place {identifier : Term} (hplace : scope.place? identifier = none) :
    t.resolved? identifier = s.resolved? identifier := by
  have hlookup : scope.places.lookup identifier = none := hplace
  rw [h.resolved?, ledger, List.lookup_append, hlookup, Option.none_or, State.resolved?]

/-- A node shape that takes a place goes on record with it. -/
theorem opened {identifier : Term} {place : NodeType} {m m' : TypeModel} (hm : m' = m)
    (hsound : Sound (namer g settings) (AnyMember (g := g)) ((identifier, place) :: scope.places)
      { s with model := m }) :
    Threads g settings (scope.enter identifier place) { s with model := m }
      (State.record { t with model := m', inProgress := [] } identifier place) :=
  ⟨⟨hm, h.events, h.recorded.cons _, rfl⟩, hsound⟩

end Threads

/-- The functions of typing and filling do the same to both states. -/
theorem parallel_threads (g : ShapesGraph) (n : Namer) (settings : Settings) (scope : Scope) :
    Parallel g n n (Threads g settings scope) Eq where
  log _ _ e h := h.log e
  reference _ _ _ _ h := by rw [h.model]
  item _ _ _ _ h := by rw [h.model]
  valid _ _ h := by rw [h.model]
  extent _ _ h := by rw [h.model]
  named _ _ _ _ := rfl
  relate _ _ _ _ _ _ _ h :=
    h.withModel (by rw [h.model]) (TypeModel.outline_modifyObject _ _ fun _ => rfl)
  addProperty _ _ _ p p' hp h := by
    obtain rfl : p = p' := hp
    exact h.withModel (by rw [h.model]) (TypeModel.outline_modifyObject _ _ fun _ => rfl)
  setItem _ _ _ _ h :=
    h.withModel (by rw [h.model]) (TypeModel.outline_modifyObject _ _ fun _ => rfl)
  fillComposite s t kind id ids h := by
    rw [h.model]
    cases hfill : s.model.fillComposite kind id ids with
    | ok m => exact h.withModel rfl (TypeModel.outline_fillComposite hfill)
    | error e => rfl

/-! ## Inline shapes -/

section Inline

variable {α : Type} {step step' : Resolver α} {identifier : Term}

/-- A shape on the trail is in progress. -/
theorem lockstep_whileTyping_of_mem (h : identifier ∈ scope.trail) :
    Lockstep (Threads g settings scope) Eq (throw (.selfReference identifier))
      (whileTyping identifier step') := by
  intro s t hst
  rw [outcome_whileTyping_of_mem step' (hst.inProgress ▸ h)]
  exact ⟨rfl, hst⟩

/-- Walking into a shape puts it in progress, and it is so until the end. -/
theorem lockstep_whileTyping (hfresh : identifier ∉ scope.trail)
    (h : Lockstep (Threads g settings (scope.walk identifier)) Eq step step') :
    Lockstep (Threads g settings scope) Eq step (whileTyping identifier step') := by
  intro s t hst
  have hwalked : Threads g settings (scope.walk identifier) s
      { t with inProgress := identifier :: t.inProgress } :=
    ⟨⟨hst.model, hst.events, hst.recorded, congrArg (identifier :: ·) hst.inProgress⟩, hst.sound⟩
  obtain ⟨halike, hend⟩ := h s _ hwalked
  rw [outcome_whileTyping step' (hst.inProgress ▸ hfresh)]
  refine ⟨halike, ⟨hend.model, hend.events, hend.recorded, ?_⟩, hend.sound⟩
  dsimp only
  rw [hend.inProgress]
  exact List.erase_cons_head identifier scope.trail

end Inline

/-! ## Node shapes -/

section Nodes

variable {shape : g.Member}

/-- Two ways of building a node shape from a state end alike.  Any place that has been
taken is new, and if building has ended well, one has. -/
def BuiltAlike (scope : Scope) (identifier : Term) (s : State)
    (run run' : Except ResolutionError NodeType × State) : Prop :=
  ∃ taken : List (Term × NodeType), (∀ p ∈ taken, s.model.extent.holds p.2 = false) ∧
    Alike (fun type type' => type = type' ∧ taken = [(identifier, type)]) run.1 run'.1 ∧
    Carries ⟨taken ++ scope.places, []⟩ run.2 run'.2

/-- Once a place is taken, it is left to fill it. -/
theorem builtAlike_of_filled {identifier : Term} {place : NodeType} {fill fill' : Resolver Unit}
    (hbeyond : s.model.extent.holds place = false)
    (hfill : Lockstep (Threads g settings (scope.enter identifier place)) Eq fill fill')
    (huv : Threads g settings (scope.enter identifier place) u v) :
    BuiltAlike scope identifier s (outcome (do fill; return place) u)
      (outcome (do fill'; return place) v) := by
  have hplaced : Lockstep (Threads g settings (scope.enter identifier place))
      (fun type type' => type = type' ∧ [(identifier, place)] = [(identifier, type)])
      (do fill; return place) (do fill'; return place) :=
    hfill.bind_same fun _ => lockstep_pure ⟨rfl, rfl⟩
  obtain ⟨halike, hend⟩ := hplaced u v huv
  refine ⟨[(identifier, place)], fun p hp => ?_, halike, hend.toCarries⟩
  obtain rfl := List.mem_singleton.1 hp
  exact hbeyond

/-- Building a node shape ends alike with its place handed down and with it on record. -/
theorem builtAlike (hst : Threads g settings scope s t)
    (hplace : scope.place? shape.1.identifier = none)
    (hresolved : s.resolved? shape.1.identifier = none)
    {resolve : NodeType → NodeResolver g} {typer : NodeType → ValueTyper g}
    {resolve' : NodeResolver g} {typer' : ValueTyper g}
    (hresolve : ∀ place r, Lockstep (Threads g settings (scope.enter shape.1.identifier place)) Eq
      (resolve place r) (resolve' r))
    (htyper : ∀ place r, Lockstep (Threads g settings (scope.enter shape.1.identifier place)) Eq
      (typer place {} r) (typer' {} r)) :
    BuiltAlike scope shape.1.identifier s
      (outcome (build (namer g settings) shape.1 resolve typer) s)
      (outcome (buildRecorded (namer g settings) shape.1 resolve' typer')
        { t with inProgress := [] }) := by
  have hfresh := not_mem_ledger hplace hresolved
  have hR := fun place => parallel_threads g (namer g settings) settings
    (scope.enter shape.1.identifier place)
  unfold build buildRecorded
  cases hcomposition : shape.1.constraints.nodeComposition? with
  | some composition =>
    obtain ⟨kind, members⟩ := composition
    dsimp only
    split
    · exact ⟨[], fun _ hp => (by cases hp), rfl, hst.model, hst.events, hst.recorded, rfl⟩
    · have hplaced := (ensures_addComposite hst.sound trivial hfresh hcomposition
        fun _ _ => True).ok rfl (outcome_addComposite _ _ _)
      rw [outcome_bind, outcome_addComposite, outcome_bind, outcome_addComposite]
      dsimp only
      rw [outcome_modify_bind, hst.model]
      exact builtAlike_of_filled (TypeModel.not_holds_composite hplaced.2)
        (lockstep_fillComposite (hR _) (hresolve _) kind _ members)
        (hst.opened rfl hplaced.1.sound)
  | none =>
    dsimp only
    have hplaced := (ensures_addObject hst.sound trivial hfresh hcomposition
      fun _ _ => True).ok rfl (outcome_addObject _ _)
    rw [outcome_bind, outcome_addObject, outcome_bind, outcome_addObject]
    dsimp only
    rw [outcome_modify_bind, hst.model]
    exact builtAlike_of_filled (TypeModel.not_holds_object hplaced.2)
      (lockstep_fillObject (hR _) (hresolve _) (htyper _) _) (hst.opened rfl hplaced.1.sound)

/-- What a node shape that fails has put on record is taken back. -/
theorem carries_rollback {taken : List (Term × NodeType)} (hst : Threads g settings scope s t)
    (htaken : ∀ p ∈ taken, s.model.extent.holds p.2 = false)
    (huv : Carries ⟨taken ++ scope.places, []⟩ u v) :
    Carries scope (u.rollback s.model.extent)
      (State.rollback { v with inProgress := t.inProgress } t.model.extent) := by
  have hdropped : taken.filter (fun p => s.model.extent.holds p.2) = [] := by
    simpa [List.filter_eq_nil_iff] using htaken
  have hkept : scope.places.filter (fun p => s.model.extent.holds p.2) = scope.places :=
    List.filter_eq_self.2 fun p hp => hst.sound.holds (List.mem_append_left _ hp)
  have hfiltered := huv.recorded.filter fun p => s.model.extent.holds p.2
  rw [ledger, List.filter_append, List.filter_append, hdropped, hkept, List.nil_append]
    at hfiltered
  rw [hst.model]
  exact ⟨congrArg (TypeModel.truncate · _) huv.model, huv.events, hfiltered, hst.inProgress⟩

/-- A node shape that has been built is on record before it is recorded. -/
theorem carries_record {identifier : Term} {type : NodeType} {inProgress : List Term}
    (hinProgress : inProgress = scope.trail)
    (huv : Carries ⟨[(identifier, type)] ++ scope.places, []⟩ u v) :
    Carries scope (u.record identifier type) { v with inProgress } :=
  ⟨huv.model, huv.events, huv.recorded.trans List.perm_middle.symm, hinProgress⟩

/-- So the end of building is the end of resolving. -/
theorem BuiltAlike.carries {identifier : Term} {step step' : Resolver NodeType}
    (hst : Threads g settings scope s t)
    (h : BuiltAlike scope identifier s (outcome step s)
      (outcome step' { t with inProgress := [] })) :
    let run := outcome (do
      let type ← transaction step
      modify (·.record identifier type)
      return type) s
    let run' := outcome (transaction (aside step')) t
    Alike Eq run.1 run'.1 ∧ Carries scope run.2 run'.2 := by
  obtain ⟨taken, htaken, halike, hend⟩ := h
  dsimp only
  rw [outcome_bind, outcome_transaction, outcome_transaction, outcome_aside]
  cases hrun : outcome step s with
  | mk result u =>
    cases hrun' : outcome step' { t with inProgress := [] } with
    | mk result' v =>
      rw [hrun, hrun'] at halike hend
      obtain ⟨type, _, rfl, rfl, rfl, rfl⟩ | ⟨e, rfl, rfl⟩ := halike.cases
      · exact ⟨rfl, carries_record hst.inProgress hend⟩
      · exact ⟨rfl, carries_rollback hst htaken hend⟩

end Nodes

/-! ## Lockstep -/

section Step

variable {alarm : Alarm} {depth : Nat} {shape : g.Member}

/-- A node shape goes in lockstep if what is found within it does, once it has a place. -/
theorem lockstep_threadNode
    (hnode : scope.place? shape.1.identifier = none → ∀ place r,
      Lockstep (Threads g settings (scope.enter shape.1.identifier place)) Eq
        (nodeShape g settings (scope.enter shape.1.identifier place) r)
        (threadNode g settings alarm depth r))
    (htype : scope.place? shape.1.identifier = none → ∀ place r,
      Lockstep (Threads g settings (scope.enter shape.1.identifier place)) Eq
        (valueType g settings (scope.enter shape.1.identifier place) {} r)
        (threadType g settings alarm depth {} r)) :
    Lockstep (Threads g settings scope) Eq (nodeShape g settings scope shape)
      (threadNode g settings alarm (depth + 1) shape) := by
  intro s t hst
  -- the end is sound however it is reached, so it is left to see what the fields hold
  have hsound : SoundSince (namer g settings) AnyMember scope.places s
      (outcome (nodeShape g settings scope shape) s).2 :=
    (keeps_nodeShape scope (fun _ _ => trivial) trivial).apply ⟨hst.sound, .refl _⟩
  suffices h : Alike Eq (outcome (nodeShape g settings scope shape) s).1
        (outcome (threadNode g settings alarm (depth + 1) shape) t).1 ∧
      Carries scope (outcome (nodeShape g settings scope shape) s).2
        (outcome (threadNode g settings alarm (depth + 1) shape) t).2 from
    ⟨h.1, h.2, hsound.1⟩
  rw [threadNode, nodeShape]
  split
  · next place hplace =>
    rw [outcome_get_bind, hst.resolved?_of_place hplace]
    exact ⟨rfl, hst.toCarries.log _⟩
  · next hplace =>
    -- what has no place is on record only if it is resolved
    unfold once
    rw [outcome_get_bind, outcome_get_bind, hst.resolved?_of_not_place hplace]
    cases hresolved : s.resolved? shape.1.identifier with
    | some type => exact ⟨rfl, hst.toCarries.log _⟩
    | none =>
      have hlogged := hst.log (.resolving shape.1.identifier)
      have hend :=
        (builtAlike hlogged hplace hresolved (hnode hplace) (htype hplace)).carries hlogged
      exact hend

/-- So does an inline shape, once it is walked into. -/
theorem lockstep_threadType {inherited : Inherited}
    (hnode : ∀ r, Lockstep (Threads g settings (scope.walk shape.1.identifier)) Eq
      (nodeShape g settings (scope.walk shape.1.identifier) r)
      (threadNode g settings alarm depth r))
    (htype : shape.1.identifier ∉ scope.trail → ∀ r,
      Lockstep (Threads g settings (scope.walk shape.1.identifier)) Eq
        (valueType g settings (scope.walk shape.1.identifier) (inherited.within shape.1) r)
        (threadType g settings alarm depth (inherited.within shape.1) r)) :
    Lockstep (Threads g settings scope) Eq (valueType g settings scope inherited shape)
      (threadType g settings alarm (depth + 1) inherited shape) := by
  have hR := parallel_threads g (namer g settings) settings (scope.walk shape.1.identifier)
  rw [threadType, valueType]
  split
  · next hmem => exact lockstep_whileTyping_of_mem hmem
  · next hfresh =>
    exact lockstep_whileTyping hfresh (lockstep_typeWith hR hnode (htype hfresh))

end Step

/-- Handed down or kept in the state, the same is found, to a depth that is enough: by
induction on the depth, since what can still be entered gets less within a shape. -/
theorem lockstep_thread (g : ShapesGraph) (settings : Settings) (alarm : Alarm) (depth : Nat) :
    (∀ (scope : Scope) (shape : g.Member), scope.nodeMeasure g < depth →
      Lockstep (Threads g settings scope) Eq (nodeShape g settings scope shape)
        (threadNode g settings alarm depth shape)) ∧
    ∀ (scope : Scope) (inherited : Inherited) (shape : g.Member), scope.typeMeasure g < depth →
      Lockstep (Threads g settings scope) Eq (valueType g settings scope inherited shape)
        (threadType g settings alarm depth inherited shape) := by
  induction depth with
  | zero => exact ⟨fun _ _ h => absurd h (by omega), fun _ _ _ h => absurd h (by omega)⟩
  | succ depth ih =>
    obtain ⟨ihnode, ihtype⟩ := ih
    refine ⟨fun scope shape hdepth => ?_, fun scope inherited shape hdepth => ?_⟩
    · apply lockstep_threadNode
      · intro hplace place r
        apply ihnode
        have := Scope.nodeMeasure_enter_lt hplace place
        omega
      · intro hplace place r
        apply ihtype
        have := Scope.typeMeasure_enter_lt hplace place
        omega
    · apply lockstep_threadType
      · intro r
        apply ihnode
        rw [Scope.nodeMeasure_walk]
        have := Scope.nodeMeasure_lt_typeMeasure g scope
        omega
      · intro hfresh r
        apply ihtype
        have := Scope.typeMeasure_walk_lt hfresh
        omega

theorem lockstep_threadProperty (alarm : Alarm) {depth : Nat} (hdepth : scope.typeMeasure g < depth)
    (shape : g.Member) :
    Lockstep (Threads g settings scope) Eq
      (property (namer g settings) (valueType g settings scope) shape)
      (threadProperty g settings alarm depth shape) :=
  lockstep_property (parallel_threads g (namer g settings) settings scope)
    ((lockstep_thread g settings alarm depth).2 scope {} shape hdepth)

/-! ## All or nothing -/

/-- What is at hand in a state that keeps everything. -/
def fields (t : State) : View where
  model := t.model
  known := t.resolved?
  trail := t.inProgress

theorem Threads.fields_eq (h : Threads g settings scope s t) : fields t = view scope s := by
  have hknown : t.resolved? = (view scope s).known := by
    funext identifier
    rw [h.resolved?, known_eq_lookup]
  simp only [fields, hknown, h.model, h.inProgress, view]

/-- The state that keeps what a scope and a state have. -/
def registry (scope : Scope) (s : State) : State :=
  { s with resolved := ledger scope.places s, inProgress := scope.trail }

/-- There is one such state for every moment of a resolution. -/
theorem Reachable.threads (h : Reachable g settings scope s) :
    Threads g settings scope s (registry scope s) :=
  ⟨⟨rfl, rfl, .refl _, rfl⟩, h.sound⟩

/-- With everything in the state: a node shape that fails to resolve leaves the model, the
record and the inline shapes in progress exactly as they were; one that resolves leaves
every earlier entry, all that was on record and the inline shapes in progress as they were;
and a property shape does so too, whether it resolves or not. -/
theorem threaded_all_or_nothing (hst : Threads g settings scope s t) (alarm : Alarm) {depth : Nat}
    (hdepth : scope.typeMeasure g < depth) (shape : g.Member) :
    (∀ e v, outcome (threadNode g settings alarm depth shape) t = (.error e, v) →
      fields v = fields t) ∧
    (∀ type v, outcome (threadNode g settings alarm depth shape) t = (.ok type, v) →
      (fields t).Appends (fields v)) ∧
    (∀ result v, outcome (threadProperty g settings alarm depth shape) t = (result, v) →
      (fields t).Appends (fields v)) := by
  have hfound : ∀ r : g.Member, Found r → AnyMember r := fun _ _ => trivial
  have hspec := nodeShape_sound hfound scope shape trivial s hst.sound
  have hless := Scope.nodeMeasure_lt_typeMeasure g scope
  have hnode := (lockstep_thread g settings alarm depth).1 scope shape (by omega)
  refine ⟨fun e v hrun' => ?_, fun type v hrun' => ?_, fun result v hrun' => ?_⟩
  · obtain ⟨_, _, u, _, hrun, hend, _, huv⟩ | ⟨e, u, _, hrun, hend, huv⟩ := hnode.cases hst
    · cases hend.symm.trans hrun'
    · obtain ⟨-, rfl⟩ := Prod.mk.inj (hend.symm.trans hrun')
      rw [huv.fields_eq, hst.fields_eq, view_eq_of_sameTypes (hspec.error rfl hrun)]
  · obtain ⟨type, _, u, _, hrun, hend, rfl, huv⟩ | ⟨e, u, _, hrun, hend, _⟩ := hnode.cases hst
    · obtain ⟨-, rfl⟩ := Prod.mk.inj (hend.symm.trans hrun')
      have hok := hspec.ok rfl hrun
      rw [huv.fields_eq, hst.fields_eq]
      exact SoundSince.appends hst.sound ⟨hok.1, hok.2.1⟩
    · cases hend.symm.trans hrun'
  · have hkept := (keeps_resolveProperty scope hfound shape).apply ⟨hst.sound, .refl s⟩
    have hend := (lockstep_threadProperty alarm hdepth shape s t hst).2
    rw [hrun'] at hend
    rw [hend.fields_eq, hst.fields_eq]
    exact SoundSince.appends hst.sound hkept

/-! ## Agreement -/

/-- The state that a call leaves, with everything in the state. -/
def Call.thread (settings : Settings) (alarm : Alarm) (depth : Nat) (t : State) : Call g → State
  | nodeShape shape => (outcome (threadNode g settings alarm depth shape) t).2
  | property shape => (outcome (threadProperty g settings alarm depth shape) t).2

/-- The state after a sequence of calls. -/
def afterThreadedCalls (settings : Settings) (alarm : Alarm) (depth : Nat) (calls : List (Call g)) :
    State :=
  calls.foldl (Call.thread settings alarm depth) .empty

section Agreement

variable (settings : Settings) (alarm : Alarm) {depth : Nat}
variable (hdepth : Scope.outermost.typeMeasure g < depth)
include hdepth

theorem lockstep_threadNode_outermost (shape : g.Member) :
    Lockstep (Threads g settings .outermost) Eq (resolveNodeShape g settings shape)
      (threadNode g settings alarm depth shape) := by
  have hless := Scope.nodeMeasure_lt_typeMeasure g .outermost
  exact (lockstep_thread g settings alarm depth).1 .outermost shape (by omega)

/-- Every call keeps the states together. -/
theorem threads_call (hst : Threads g settings .outermost s t) (call : Call g) :
    Threads g settings .outermost (Call.run settings s call)
      (Call.thread settings alarm depth t call) := by
  cases call with
  | nodeShape shape => exact (lockstep_threadNode_outermost settings alarm hdepth shape s t hst).2
  | property shape => exact (lockstep_threadProperty alarm hdepth shape s t hst).2

/-- So do all calls. -/
theorem threads_afterCalls (calls : List (Call g)) :
    Threads g settings .outermost (afterCalls settings calls)
      (afterThreadedCalls settings alarm depth calls) := by
  have hfrom : ∀ s t, Threads g settings .outermost s t →
      Threads g settings .outermost (calls.foldl (Call.run settings) s)
        (calls.foldl (Call.thread settings alarm depth) t) := by
    induction calls with
    | nil => exact fun _ _ hst => hst
    | cons call calls ih =>
      intro s t hst
      exact ih _ _ (threads_call settings alarm hdepth hst call)
  exact hfrom _ _ ⟨⟨rfl, rfl, .refl _, rfl⟩, sound_empty _ _⟩

end Agreement

/-- Resolution with everything in the state ends on every graph, without a bound of its
own: whatever would happen beyond the depth of calls, it is resolution with a scope.  After
whatever calls the same is at hand and the same has been reported, the next call gives the
same, and so does resolving every declared node shape. -/
theorem threading_agrees (g : ShapesGraph) (settings : Settings) (alarm : Alarm) (more : Nat) :
    let depth := callDepth g + more
    (∀ calls : List (Call g),
      let s := afterCalls settings calls
      let t := afterThreadedCalls settings alarm depth calls
      fields t = view .outermost s ∧ t.events = s.events ∧
      ∀ shape,
        (outcome (threadNode g settings alarm depth shape) t).1 =
          (outcome (resolveNodeShape g settings shape) s).1 ∧
        (outcome (threadProperty g settings alarm depth shape) t).1 =
          (outcome (resolveProperty g settings shape) s).1) ∧
    let run := outcome (resolveAllBy (threadNode g settings alarm depth)) .empty
    run.1 = (resolveGraph g settings).1 ∧ run.2.events = (resolveGraph g settings).2.events := by
  intro depth
  have hdepth : Scope.outermost.typeMeasure g < depth := by
    have := typeMeasure_outermost_lt g
    omega
  refine ⟨fun calls => ?_, ?_⟩
  · have hst := threads_afterCalls settings alarm hdepth calls
    refine ⟨hst.fields_eq, hst.events, fun shape => ⟨?_, ?_⟩⟩
    · have hnode := (lockstep_threadNode_outermost settings alarm hdepth shape _ _ hst).1
      exact (hnode.eq fun _ _ h => h).symm
    · have hproperty := (lockstep_threadProperty alarm hdepth shape _ _ hst).1
      exact (hproperty.eq fun _ _ h => h).symm
  · have hall := lockstep_resolveAllBy
      (parallel_threads g (namer g settings) settings .outermost)
      (lockstep_threadNode_outermost settings alarm hdepth)
    have hst : Threads g settings .outermost .empty .empty :=
      ⟨⟨rfl, rfl, .refl _, rfl⟩, sound_empty _ _⟩
    obtain ⟨halike, hend⟩ := hall _ _ hst
    refine ⟨(halike.eq ?_).symm, hend.events⟩
    rintro _ _ ⟨s, t, hst, rfl, rfl⟩
    exact hst.model.symm

end Resolver

end ShaclTypes
