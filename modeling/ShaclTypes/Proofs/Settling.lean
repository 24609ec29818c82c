import ShaclTypes.Proofs.Filling
set_option autoImplicit false

/-!
# Resolution settles what it resolves

In a scope, a node shape resolves exactly if it can be resolved while the node
shapes under resolution are assumed to be, and whatever was resolved on the way is
settled then (`nodeShape_settles`).  The proof is by induction on what can still be
entered.  Within a node shape more is assumed than around it; but if the node
shape can be built, the assumption makes no difference
(`resolvable_insert_of_buildable`), and if it cannot, all that leaned on it is
dropped together with it.
-/

namespace ShaclTypes

open ShaclTypes.Rdf

namespace Resolver

open ShapesGraph

variable {g : ShapesGraph} {settings : Settings}

/-- The node shapes that can be resolved in a scope. -/
def resolvableIn (g : ShapesGraph) (scope : Scope) : Term → Prop :=
  g.Resolvable (· ∈ scope.underway)

/-- The node shapes that can be resolved within a node shape in a scope. -/
def resolvableWithin (g : ShapesGraph) (scope : Scope) (identifier : Term) : Term → Prop :=
  g.Resolvable (· ∈ identifier :: scope.underway)

theorem resolvableWithin_eq (scope : Scope) (identifier : Term) :
    resolvableWithin g scope identifier =
      g.Resolvable fun u => u = identifier ∨ u ∈ scope.underway := by
  simp only [resolvableWithin, List.mem_cons]

theorem resolvableIn_le_within (scope : Scope) (identifier : Term) :
    resolvableIn g scope ≤ resolvableWithin g scope identifier :=
  resolvable_mono fun _ hu => List.mem_cons_of_mem _ hu

/-- What is settled in a scope can be resolved in it. -/
theorem Settled.resolvable {n : Namer} {scope : Scope} {known : List Term} {m : TypeModel}
    {p : Term × NodeType} {r : g.Member}
    (h : Settled g n (resolvableIn g scope) known m p r) : resolvableIn g scope p.1 :=
  resolvable_iff.2 (.inr ⟨r, h.member, h.buildable⟩)

/-- What a resolution has added is settled, and the node shape leads to it. -/
def SettledSince (g : ShapesGraph) (n : Namer) (scope : Scope) (shape : g.Member)
    (s t : State) : Prop :=
  ∀ p ∈ t.resolved, p ∉ s.resolved →
    (∃ r, Settled g n (resolvableIn g scope) ((ledger scope.places t).map Prod.fst) t.model p r) ∧
      Leads g n (resolvableIn g scope) shape.1.identifier p.1

/-- The place of a node shape in a scope. -/
def siteIn (settings : Settings) (scope : Scope) (s : State) (shape : g.Member)
    (place : NodeType) : Site g :=
  ⟨namer g settings, resolvableWithin g scope shape.1.identifier, scope.places, s, shape, place⟩

section Sites

variable {scope : Scope} {s t u : State} {shape : g.Member} {place : NodeType}

/-- Resolving a node shape at a stage of another one leads to a further stage. -/
theorem Stage.resolve {r : g.Member} {wanted : Term → Prop}
    (h : Stage (siteIn settings scope s shape place) wanted t)
    (hsound : Sound (namer g settings) (Found (g := g))
      (scope.enter shape.1.identifier place).places u)
    (hext : t.Extends u)
    (hsettled : SettledSince g (namer g settings) (scope.enter shape.1.identifier place) r t u) :
    Stage (siteIn settings scope s shape place) (fun a => wanted a ∨ a = r.1.identifier) u := by
  refine ⟨⟨hsound, h.filling.grown.trans hext⟩, fun p hp => ?_, fun p hp hnew => ?_⟩
  · by_cases hold : p ∈ t.resolved
    · exact h.backed p hold
    · obtain ⟨⟨r', hr'⟩, -⟩ := hsettled p hp hold
      exact hr'.resolvable
  · by_cases hold : p ∈ t.resolved
    · obtain ⟨⟨r', hr'⟩, a, ha, hleads⟩ := h.settled p hold hnew
      refine ⟨⟨r', hr'.mono hext.model.retains (hext.model.keepsEntry _) ?_⟩, a, .inl ha, hleads⟩
      exact Site.known_subset hext
    · obtain ⟨hsettled, hleads⟩ := hsettled p hp hold
      exact ⟨hsettled, r.1.identifier, .inr rfl, hleads⟩

/-- If what is resolved within the node shape is settled, then it is resolved as the
building of the node shape demands. -/
theorem answers_nodeShape
    (hsettles : ∀ r : g.Member, Found r → ∀ t,
      Sound (namer g settings) (Found (g := g)) (scope.enter shape.1.identifier place).places t →
      (∀ p ∈ t.resolved, resolvableIn g (scope.enter shape.1.identifier place) p.1) →
      Ensures (fun u => u = t) (nodeShape g settings (scope.enter shape.1.identifier place) r)
        (fun _ u => resolvableIn g (scope.enter shape.1.identifier place) r.1.identifier ∧
          SettledSince g (namer g settings) (scope.enter shape.1.identifier place) r t u)
        (fun _ _ => ¬resolvableIn g (scope.enter shape.1.identifier place) r.1.identifier)) :
    Answers (siteIn settings scope s shape place)
      (nodeShape g settings (scope.enter shape.1.identifier place)) := by
  intro r hr wanted t ht
  have hsound := nodeShape_sound (fun _ h => h) (scope.enter shape.1.identifier place) r hr t
    ht.sound
  refine (hsound.and (hsettles r hr t ht.sound ht.backed)).mono (fun _ h => h) ?_ (fun _ _ h => h)
  intro type u hend
  obtain ⟨⟨hsound, hext, hlisted⟩, hresolvable, hsettled⟩ := hend
  exact ⟨ht.resolve hsound hext hsettled, hext, hresolvable, hlisted⟩

/-- A node shape that has been built is settled once it is recorded, with all
that has been resolved for it. -/
theorem Filled.record (hfound : Found shape)
    (h : Filled (siteIn settings scope s shape place)
      (Needs g (namer g settings) (resolvableWithin g scope shape.1.identifier) shape.1)
      (fun m => AsExpected g (namer g settings)
        (resolvableWithin g scope shape.1.identifier) m shape.1 place) t)
    (hbuildable : g.Buildable (resolvableWithin g scope shape.1.identifier) shape.1) :
    resolvableIn g scope shape.1.identifier ∧
      SettledSince g (namer g settings) scope shape s (t.record shape.1.identifier place) := by
  have hsame : resolvableWithin g scope shape.1.identifier = resolvableIn g scope := by
    rw [resolvableWithin_eq] at hbuildable ⊢
    exact resolvable_insert_of_buildable hfound hbuildable
  unfold siteIn at h
  rw [hsame] at h hbuildable
  refine ⟨resolvable_iff.2 (.inr ⟨shape, hfound, hbuildable⟩), ?_⟩
  -- recording moves the node shape within the ledger
  have hperm : (ledger scope.places (t.record shape.1.identifier place)).Perm
      (ledger ((shape.1.identifier, place) :: scope.places) t) := List.perm_middle
  have hknown : (ledger ((shape.1.identifier, place) :: scope.places) t).map Prod.fst ⊆
      (ledger scope.places (t.record shape.1.identifier place)).map Prod.fst :=
    (hperm.map Prod.fst).symm.subset
  intro p hp hnew
  rcases List.mem_cons.1 hp with rfl | hp
  · refine ⟨⟨shape, hfound, hbuildable, h.entry, ?_⟩, .refl⟩
    exact fun a ha => hknown (h.met a ha)
  · obtain ⟨⟨r, hr⟩, a, ha, hleads⟩ := h.stage.settled p hp hnew
    refine ⟨⟨r, hr.member, hr.buildable, hr.expected, fun b hb => hknown (hr.closed b hb)⟩, ?_⟩
    exact .head ⟨shape, hfound, ha⟩ hleads

end Sites

/-- A node shape resolves exactly if it can be resolved in the scope, and then
all that has been resolved on the way is settled. -/
theorem nodeShape_settles (scope : Scope) (shape : g.Member) (hfound : Found shape) (s : State)
    (hs : Sound (namer g settings) (Found (g := g)) scope.places s)
    (hbacked : ∀ p ∈ s.resolved, resolvableIn g scope p.1) :
    Ensures (fun t => t = s) (nodeShape g settings scope shape)
      (fun _ t => resolvableIn g scope shape.1.identifier ∧
        SettledSince g (namer g settings) scope shape s t)
      (fun _ _ => ¬resolvableIn g scope shape.1.identifier) := by
  have hnothing : ∀ scope shape s e,
      SettledSince g (namer g settings) scope shape s (s.log e) :=
    fun _ _ _ _ _ hp hnew => absurd hp hnew
  refine nodeShape_induction settings
    (fun scope shape s => Found shape ∧ Sound (namer g settings) (Found (g := g)) scope.places s ∧
      ∀ p ∈ s.resolved, resolvableIn g scope p.1)
    (fun scope shape s _ t => resolvableIn g scope shape.1.identifier ∧
      SettledSince g (namer g settings) scope shape s t)
    (fun scope shape _ _ _ => ¬resolvableIn g scope shape.1.identifier)
    ?_ ?_ ?_ scope shape s ⟨hfound, hs, hbacked⟩
  · rintro scope shape s place - hplace
    exact ⟨resolvable_of_assumed (Scope.mem_underway.2 (by rw [hplace]; rfl)), hnothing _ _ _ _⟩
  · rintro scope shape s type ⟨-, -, hbacked⟩ htype
    exact ⟨hbacked _ (mem_of_lookup htype), hnothing _ _ _ _⟩
  · rintro scope shape s ⟨hfound, hs, hbacked⟩ hplace hresolved ih
    have hunassumed : shape.1.identifier ∉ scope.underway := by
      rw [Scope.mem_underway, hplace]
      simp
    have hinner : ∀ place,
        Answers (siteIn settings scope (s.log (.resolving shape.1.identifier)) shape place)
          (nodeShape g settings (scope.enter shape.1.identifier place)) := fun place =>
      answers_nodeShape fun r hr t ht hbacked => ih place r t ⟨hr, ht, hbacked⟩
    refine (ensures_build_expected (hs.log _) hfound (not_mem_ledger hplace hresolved)
      (fun p hp => resolvableIn_le_within scope _ _ (hbacked p hp)) hinner).mono
      (fun _ h => h) ?_ ?_
    · intro place t hend
      obtain ⟨hfilled, hbuildable⟩ := hend
      exact Filled.record (s := s.log (.resolving shape.1.identifier)) hfound hfilled hbuildable
    · intro _ _ hbuildable hresolvable
      refine hbuildable ?_
      rw [resolvableWithin_eq]
      exact hresolvable.buildable hunassumed hfound

end Resolver

end ShaclTypes
