import Mathlib.Data.List.Induction
import ShaclTypes.Proofs.Rollback
set_option autoImplicit false

/-!
# One node shape, one entry

From outside, a resolution is a sequence of calls, each for a node shape or a
property shape, and each of which may fail.  After every call the resolved node
shapes and the entries of the model stand in bijection: `one_identifier_one_entry`
says so entry by entry, and that a node shape which is resolved once more is
answered with the entry that it has.
-/

namespace ShaclTypes

open ShaclTypes.Rdf

namespace Resolver

open ShapesGraph

variable {g : ShapesGraph}

/-! ## Calls from outside -/

/-- A call from outside. -/
inductive Call (g : ShapesGraph) where
  | nodeShape (shape : g.Member)
  | property (shape : g.Member)

/-- The state that a call leaves, whether it fails or not. -/
def Call.run (settings : Settings) (s : State) : Call g → State
  | nodeShape shape => (outcome (resolveNodeShape g settings shape) s).2
  | property shape => (outcome (resolveProperty g settings shape) s).2

/-- The state after a sequence of calls, beginning with nothing resolved. -/
def afterCalls (settings : Settings) (calls : List (Call g)) : State :=
  calls.foldl (Call.run settings) .empty

/-- Outside of all resolutions only resolved node shapes are in the ledger. -/
@[simp] theorem ledger_nil (s : State) : ledger [] s = s.resolved := rfl

theorem afterCalls_concat (settings : Settings) (calls : List (Call g)) (call : Call g) :
    afterCalls settings (calls ++ [call]) = call.run settings (afterCalls settings calls) := by
  simp [afterCalls]

/-- What every call keeps holds after every sequence of calls. -/
theorem afterCalls_induction {I : State → Prop} {settings : Settings} (hempty : I .empty)
    (calls : List (Call g)) (hrun : ∀ call ∈ calls, ∀ s, I s → I (call.run settings s)) :
    I (afterCalls settings calls) := by
  induction calls using List.reverseRecOn with
  | nil => exact hempty
  | append_singleton calls call ih =>
    rw [afterCalls_concat]
    refine hrun call (by simp) _ (ih fun c hc => hrun c ?_)
    exact List.mem_append_left _ hc

/-- A call leaves a sound state if entries may be made from its shape. -/
theorem Call.run_sound {settings : Settings} {admitted : g.Member → Prop} {s : State}
    (hfound : ∀ r : g.Member, Found r → admitted r) {call : Call g}
    (hcall : ∀ shape, call = .nodeShape shape → admitted shape)
    (hs : Sound (namer g settings) admitted [] s) :
    SoundSince (namer g settings) admitted [] s (call.run settings s) := by
  cases call with
  | nodeShape shape =>
    exact (keeps_nodeShape .outermost hfound (hcall shape rfl)).apply ⟨hs, .refl s⟩
  | property shape =>
    exact (keeps_resolveProperty .outermost hfound shape).apply ⟨hs, .refl s⟩

theorem sound_afterCalls (settings : Settings) (calls : List (Call g)) :
    Sound (namer g settings) (AnyMember (g := g)) [] (afterCalls settings calls) :=
  afterCalls_induction (sound_empty _ _) calls fun _ _ _ hs =>
    (Call.run_sound (fun _ _ => trivial) (fun _ _ => trivial) hs).1

/-! ## The bijection -/

section Bijection

variable {n : Namer} {admitted : g.Member → Prop} {s : State}

/-- A node shape is resolved to an entry if and only if the entry is its own. -/
theorem resolved?_eq_some_iff_owner (h : Sound n admitted [] s) {identifier : Term}
    {type : NodeType} :
    s.resolved? identifier = some type ↔ s.model.owner? type = some identifier := by
  rw [State.resolved?, ← ledger_nil s, h.lookup_eq_some]
  exact ⟨fun hlisted => h.owner hlisted, fun howner => h.listed type identifier howner⟩

/-- A resolved node shape is known. -/
theorem outcome_resolveNodeShape_of_resolved {settings : Settings} {shape : g.Member}
    {type : NodeType} (h : s.resolved? shape.1.identifier = some type) :
    outcome (resolveNodeShape g settings shape) s =
      (.ok type, s.log (.known shape.1.identifier)) := by
  rw [resolveNodeShape, nodeShape_eq]
  simp only [Scope.place?, Scope.outermost, List.lookup_nil, once]
  rw [outcome_bind, outcome_get]
  simp only [h, outcome_bind, outcome_report, outcome_pure]

end Bijection

/-- After every sequence of calls on an empty state, whether they fail or not:
an identifier is resolved once, to an entry that there is and that has it as the
identifier in its name; every entry is what exactly one identifier is resolved
to; no two entries, in one list or in different ones, have an identifier in
common; and resolving a resolved node shape gives the entry that it has and
changes nothing but the events. -/
theorem one_identifier_one_entry (settings : Settings) (calls : List (Call g)) :
    let s := afterCalls settings calls
    (s.resolved.map Prod.fst).Nodup ∧
    (∀ identifier id, s.resolved? identifier = some (.object id) →
      ∃ o, s.model.object? id = some o ∧ o.name.identifier = identifier) ∧
    (∀ identifier kind id, s.resolved? identifier = some (.composite kind id) →
      ∃ c, s.model.composite? kind id = some c ∧ c.name.identifier = identifier) ∧
    (∀ type, s.model.extent.holds type = true →
      ∃! identifier, s.resolved? identifier = some type) ∧
    (∀ type type' identifier, s.model.owner? type = some identifier →
      s.model.owner? type' = some identifier → type = type') ∧
    (∀ (shape : g.Member) type, s.resolved? shape.1.identifier = some type →
      outcome (resolveNodeShape g settings shape) s =
        (.ok type, s.log (.known shape.1.identifier))) := by
  intro s
  have hsound : Sound (namer g settings) (AnyMember (g := g)) [] s :=
    sound_afterCalls settings calls
  have howner : ∀ {identifier type},
      s.resolved? identifier = some type ↔ s.model.owner? type = some identifier :=
    resolved?_eq_some_iff_owner hsound
  refine ⟨hsound.distinct, ?_, ?_, ?_, ?_, ?_⟩
  · intro identifier id hid
    exact Option.map_eq_some_iff.1 (howner.1 hid)
  · intro identifier kind id hid
    exact Option.map_eq_some_iff.1 (howner.1 hid)
  · intro type hheld
    obtain ⟨identifier, hidentifier⟩ := TypeModel.holds_iff_owner.1 hheld
    refine ⟨identifier, howner.2 hidentifier, fun other hother => ?_⟩
    exact Option.some.inj ((howner.1 hother).symm.trans hidentifier)
  · intro type type' identifier htype htype'
    exact Option.some.inj ((howner.2 htype).symm.trans (howner.2 htype'))
  · exact fun shape type htype => outcome_resolveNodeShape_of_resolved htype

end Resolver

end ShaclTypes
