import ShaclTypes.Proofs.FixedPoint
set_option autoImplicit false

/-!
# Resolving a whole graph

All declared node shapes are resolved one after the other.  This ends well exactly
if each of them can be resolved, and then the model has entries for what they lead
to and for nothing else, all of them settled (`ensures_resolveAll`).  The final
check of the model never fails, since a settled composite has members enough.
-/

namespace ShaclTypes

open ShaclTypes.Rdf

namespace Resolver

open ShapesGraph

variable {g : ShapesGraph} {settings : Settings} {s : State}

/-- What the declared node shapes lead to. -/
def Reached (g : ShapesGraph) (settings : Settings) (t : Term) : Prop :=
  ∃ r ∈ g.nodeShapes, Leads g (namer g settings) (resolvableIn g .outermost) r.1.identifier t

/-- The state after some of the declared node shapes have been resolved: they all
are there, and whatever is there, one of them leads to. -/
structure ResolvedSoFar (g : ShapesGraph) (settings : Settings) (done : List g.Member)
    (s : State) : Prop where
  settled : AllSettled g settings s
  resolved : ∀ r ∈ done, r.1.identifier ∈ s.resolved.map Prod.fst
  reached : ∀ t ∈ s.resolved.map Prod.fst, ∃ r ∈ done,
    Leads g (namer g settings) (resolvableIn g .outermost) r.1.identifier t

namespace AllSettled

/-- What is resolved leads to nothing that is not. -/
theorem closed (h : AllSettled g settings s) {t u : Term} (ht : t ∈ s.resolved.map Prod.fst)
    (hleads : Leads g (namer g settings) (resolvableIn g .outermost) t u) :
    u ∈ s.resolved.map Prod.fst := by
  induction hleads with
  | refl => exact ht
  | tail _ hneeds ih =>
    obtain ⟨p, hp, rfl⟩ := List.mem_map.1 ih
    obtain ⟨r, hr⟩ := h.settled p hp
    obtain ⟨r', hmember, hneeds⟩ := hneeds
    obtain rfl : r = r' := Option.some.inj (hr.member.symm.trans hmember)
    exact hr.closed _ hneeds

/-- Settled composites have two members or more. -/
theorem two_le_members (h : AllSettled g settings s) {kind : CompositeKind} {id : CompositeId}
    {c : ObjectComposite} (hc : s.model.composite? kind id = some c) : 2 ≤ c.members.length := by
  obtain ⟨shape, members, ⟨-, hbuildable, -, -⟩, hcomposite, hreads⟩ := h.of_composite? hc
  have hmembers : c.members.map (g.numbering s.model).object =
      g.memberSlots (resolvableIn g .outermost) members :=
    congrArg ObjectComposite.members hreads
  unfold Buildable at hbuildable
  rw [hcomposite] at hbuildable
  have htwo : 2 ≤ (g.memberSlots (resolvableIn g .outermost) members).length := hbuildable
  rw [← hmembers, List.length_map] at htwo
  exact htwo

/-- A model in which everything is settled passes the check. -/
theorem validate (h : AllSettled g settings s) : s.model.validate = .ok () := by
  refine TypeModel.validate_eq_ok.2 fun c hc => ?_
  obtain ⟨kind, hc⟩ := TypeModel.exists_kind_of_mem hc
  obtain ⟨id, hid⟩ := TypeModel.exists_composite?_of_mem hc
  exact h.two_le_members hid

end AllSettled

theorem resolvedSoFar_nil : ResolvedSoFar g settings [] .empty where
  settled := allSettled_empty
  resolved _ hr := by cases hr
  reached _ ht := by cases ht

theorem found_of_mem_nodeShapes {r : g.Member} (hr : r ∈ g.nodeShapes) : Found r := by
  obtain ⟨t, -, ht⟩ := List.mem_filterMap.1 hr
  exact found_of_member? ht

/-- One more of the declared node shapes is resolved, or cannot be. -/
theorem ensures_next {done : List g.Member} {r : g.Member} (hr : r ∈ g.nodeShapes) :
    Ensures (ResolvedSoFar g settings done) (resolveNodeShape g settings r)
      (fun _ => ResolvedSoFar g settings (done ++ [r]))
      (fun _ _ => ∃ r ∈ g.nodeShapes, ¬resolvableIn g .outermost r.1.identifier) := by
  refine Ensures.of_forall fun s hs => ?_
  refine (hs.settled.ensures_nodeShape (found_of_mem_nodeShapes hr)).mono (fun _ h => h) ?_ ?_
  · intro type t hend
    obtain ⟨ht, hext, -, hlisted, hleads, -⟩ := hend
    refine ⟨ht, fun r' hr' => ?_, fun u hu => ?_⟩
    · rcases List.mem_append.1 hr' with hdone | hlast
      · obtain ⟨p, hp, hidentifier⟩ := List.mem_map.1 (hs.resolved r' hdone)
        exact List.mem_map.2 ⟨p, hext.mem_resolved hp, hidentifier⟩
      · obtain rfl := List.mem_singleton.1 hlast
        exact List.mem_map.2 ⟨_, hlisted, rfl⟩
    · obtain ⟨p, hp, rfl⟩ := List.mem_map.1 hu
      by_cases hold : p ∈ s.resolved
      · obtain ⟨r', hr', hreached⟩ := hs.reached p.1 (List.mem_map.2 ⟨p, hold, rfl⟩)
        exact ⟨r', List.mem_append_left _ hr', hreached⟩
      · exact ⟨r, List.mem_append_right _ List.mem_cons_self, hleads p hp hold⟩
  · intro e t ht
    exact ⟨r, hr, ht.2⟩

/-- Resolving a whole graph gives a model that is settled, with entries for what
the declared node shapes lead to, or else one of them cannot be resolved. -/
theorem ensures_resolveAll (g : ShapesGraph) (settings : Settings) :
    Ensures (fun s => s = .empty) (resolveAll g settings)
      (fun m s => m = s.model ∧ AllSettled g settings s ∧
        (∀ r ∈ g.nodeShapes, resolvableIn g .outermost r.1.identifier) ∧
        ∀ t, t ∈ s.resolved.map Prod.fst ↔ Reached g settings t)
      (fun _ _ => ∃ r ∈ g.nodeShapes, ¬resolvableIn g .outermost r.1.identifier) := by
  have hnext : ∀ done, ∀ r ∈ g.nodeShapes,
      Ensures (ResolvedSoFar g settings done) (do let _ ← resolveNodeShape g settings r)
        (fun _ => ResolvedSoFar g settings (done ++ [r]))
        (fun _ _ => ∃ r ∈ g.nodeShapes, ¬resolvableIn g .outermost r.1.identifier) :=
    fun done r hr => (ensures_next hr).bind fun _ => ensures_pure fun _ h => h
  have hloop := ensures_forM (ResolvedSoFar g settings) g.nodeShapes [] hnext
  have hstart : ∀ s : State, s = .empty → ResolvedSoFar g settings [] s := by
    rintro s rfl
    exact resolvedSoFar_nil
  refine (hloop.mono hstart (fun _ _ h => h) (fun _ _ h => h)).bind fun _ => ?_
  have hcheck : Ensures (ResolvedSoFar g settings ([] ++ g.nodeShapes)) checkModel
      (fun _ => ResolvedSoFar g settings ([] ++ g.nodeShapes))
      (fun _ _ => ∃ r ∈ g.nodeShapes, ¬resolvableIn g .outermost r.1.identifier) := by
    refine ensures_get_bind fun s hs => ?_
    rw [hs.settled.validate]
    exact ensures_pure fun t ht => ht ▸ hs
  refine hcheck.bind fun _ => ensures_get_bind fun s hs => ?_
  have hreport : Ensures (fun t => t = s)
      (report (.finished s.model.extent.objects s.model.extent.intersections
        s.model.extent.unions))
      (fun _ t => AllSettled g settings t ∧ s.SameTypes t)
      (fun _ _ => ∃ r ∈ g.nodeShapes, ¬resolvableIn g .outermost r.1.identifier) :=
    ensures_report (by
      rintro t rfl
      exact ⟨hs.settled.log _, (State.SameTypes.refl t).log _⟩)
  refine hreport.bind fun _ => ensures_pure ?_
  intro t hend
  obtain ⟨ht, hsame⟩ := hend
  rw [hsame.model, hsame.resolved]
  refine ⟨rfl, ht, fun r hr => ?_, fun u => ⟨hs.reached u, ?_⟩⟩
  · obtain ⟨p, hp, hidentifier⟩ := List.mem_map.1 (hs.resolved r hr)
    exact hidentifier ▸ hs.settled.backed hp
  · intro hreached
    obtain ⟨r, hr, hleads⟩ := hreached
    exact hs.settled.closed (hs.resolved r hr) hleads

end Resolver

end ShaclTypes
