import ShaclTypes.Proofs.Expected
import ShaclTypes.Proofs.Soundness
set_option autoImplicit false

/-!
# Stages of building a node shape

While a node shape is built, its entry is filled piece by piece, and other node
shapes are resolved in between.  A `Stage` is a moment of this: everything that
has been resolved since the place was taken is settled, and was resolved because
something that is wanted leads to it.  `Filled` adds how far the entry itself has
come.  What is known about the entry survives when other node shapes are resolved
(`Lasting`), so the steps of the building can be examined one by one.
-/

namespace ShaclTypes

open ShaclTypes.Rdf

/-! ## Facts about entries -/

/-- A fact about a model that is not undone by new entries. -/
def Lasting (E : TypeModel → Prop) : Prop := ∀ m m', m.Grows m' → E m → E m'

theorem Lasting.and {E E' : TypeModel → Prop} (h : Lasting E) (h' : Lasting E') :
    Lasting fun m => E m ∧ E' m :=
  fun m m' hm hE => ⟨h m m' hm hE.1, h' m m' hm hE.2⟩

theorem lasting_readsAs {α β : Type} {g : ShapesGraph} {act : Renumbering → α → β} {a : α}
    {b : β} : Lasting fun m => ReadsAs g m act a b :=
  fun _ _ hm h => h.mono hm.retains

/-- The object type with a number reads as given. -/
def ObjectReads (g : ShapesGraph) (id : ObjectId) (e : ObjectType) (m : TypeModel) : Prop :=
  ∃ o, m.object? id = some o ∧ ReadsAs g m ObjectType.renumber o e

/-- The composite with a number reads as given. -/
def CompositeReads (g : ShapesGraph) (kind : CompositeKind) (id : CompositeId)
    (e : ObjectComposite) (m : TypeModel) : Prop :=
  ∃ c, m.composite? kind id = some c ∧ ReadsAs g m ObjectComposite.renumber c e

theorem lasting_objectReads {g : ShapesGraph} {id : ObjectId} {e : ObjectType} :
    Lasting (ObjectReads g id e) := by
  intro m m' hm h
  obtain ⟨o, ho, hreads⟩ := h
  exact ⟨o, hm.object? ho, hreads.mono hm.retains⟩

theorem lasting_compositeReads {g : ShapesGraph} {kind : CompositeKind} {id : CompositeId}
    {e : ObjectComposite} : Lasting (CompositeReads g kind id e) := by
  intro m m' hm h
  obtain ⟨c, hc, hreads⟩ := h
  exact ⟨c, hm.composite? hc, hreads.mono hm.retains⟩

theorem ObjectReads.modify {g : ShapesGraph} {id : ObjectId} {e e' : ObjectType} {m : TypeModel}
    {f : ObjectType → ObjectType} (h : ObjectReads g id e m)
    (hf : ∀ o, (f o).unfilled = o.unfilled)
    (hreads : ∀ o, ReadsAs g m ObjectType.renumber o e →
      ReadsAs g m ObjectType.renumber (f o) e') : ObjectReads g id e' (m.modifyObject id f) := by
  obtain ⟨o, ho, hold⟩ := h
  refine ⟨f o, ?_, (hreads o hold).mono (.of_outline_eq (m.outline_modifyObject id hf))⟩
  have ho' : m.objects[id.index]? = some o := ho
  simp only [TypeModel.object?, TypeModel.modifyObject, List.getElem?_modify_eq, ho',
    Option.map_eq_map, Option.map_some]

namespace Resolver

open ShapesGraph

variable {g : ShapesGraph}

/-! ## Stages -/

/-- A place that is taken for a node shape, and what was there before. -/
structure Site (g : ShapesGraph) where
  namer : Namer
  /-- the node shapes that can be resolved from within -/
  resolvable : Term → Prop
  places : List (Term × NodeType)
  start : State
  shape : g.Member
  place : NodeType

namespace Site

variable (x : Site g)

/-- The places that are taken, the one of the site included. -/
def inner : List (Term × NodeType) := (x.shape.1.identifier, x.place) :: x.places

/-- The identifiers of the node shapes that have an entry. -/
def known (t : State) : List Term := (ledger x.inner t).map Prod.fst

/-- The node shapes that are related to the shape of the site. -/
def related (a : Term) : Prop :=
  ∃ kinship, ∃ r ∈ g.relatives kinship x.shape.1, r.1.identifier = a

/-- The node shapes among the members of a composite that can be resolved. -/
def among (members : List Term) (a : Term) : Prop :=
  a ∈ members ∧ x.resolvable a ∧ (g.member? a).isSome = true

/-- The node shapes that the shape of the site needs. -/
def needs : Term → Prop := Needs g x.namer x.resolvable x.shape.1

/-- One more member is among them if it can be resolved. -/
theorem among_concat {done : List Term} {member a : Term} (h : x.among (done ++ [member]) a) :
    x.among done a ∨ a = member ∧ x.resolvable a ∧ (g.member? a).isSome = true := by
  obtain ⟨hmem, hrest⟩ := h
  rcases List.mem_append.1 hmem with hdone | hlast
  · exact .inl ⟨hdone, hrest⟩
  · exact .inr ⟨List.mem_singleton.1 hlast, hrest⟩

end Site

/-- A moment in the building of a node shape, at which certain node shapes have
been wanted. -/
structure Stage (x : Site g) (wanted : Term → Prop) (t : State) : Prop where
  filling : Filling x.namer (Found (g := g)) x.places x.start x.shape.1.identifier x.place t
  backed : ∀ p ∈ t.resolved, x.resolvable p.1
  settled : ∀ p ∈ t.resolved, p ∉ x.start.resolved →
    (∃ r, Settled g x.namer x.resolvable (x.known t) t.model p r) ∧
      ∃ a, wanted a ∧ Leads g x.namer x.resolvable a p.1

/-- A way to resolve node shapes that can be used at all stages: it succeeds with
what can be resolved and leads to a further stage, or changes nothing. -/
def Answers (x : Site g) (resolve : NodeResolver g) : Prop :=
  ∀ r, Found r → ∀ wanted t, Stage x wanted t →
    Ensures (fun u => u = t) (resolve r)
      (fun type u => Stage x (fun a => wanted a ∨ a = r.1.identifier) u ∧ t.Extends u ∧
        x.resolvable r.1.identifier ∧ (r.1.identifier, type) ∈ ledger x.inner u)
      (fun _ u => t.SameTypes u ∧ ¬x.resolvable r.1.identifier)

section Stages

variable {x : Site g} {wanted wanted' : Term → Prop} {t u : State}

theorem Site.known_subset (h : t.Extends u) : x.known t ⊆ x.known u := by
  intro a ha
  obtain ⟨p, hp, rfl⟩ := List.mem_map.1 ha
  refine List.mem_map.2 ⟨p, ?_, rfl⟩
  rcases List.mem_append.1 hp with hplace | hresolved
  · exact List.mem_append_left _ hplace
  · exact List.mem_append_right _ (h.mem_resolved hresolved)

namespace Stage

/-- Nothing has been resolved yet when the place has just been taken. -/
theorem start
    (hfilling : Filling x.namer (Found (g := g)) x.places x.start x.shape.1.identifier x.place t)
    (hresolved : t.resolved = x.start.resolved)
    (hbacked : ∀ p ∈ x.start.resolved, x.resolvable p.1) : Stage x wanted t :=
  ⟨hfilling, hresolved ▸ hbacked, fun _ hp hnew => absurd (hresolved ▸ hp) hnew⟩

theorem sound (h : Stage x wanted t) : Sound x.namer (Found (g := g)) x.inner t := h.filling.sound

theorem mono (h : Stage x wanted t) (hwanted : ∀ a, wanted a → wanted' a) :
    Stage x wanted' t := by
  refine ⟨h.filling, h.backed, fun p hp hnew => ?_⟩
  obtain ⟨hsettled, a, ha, hleads⟩ := h.settled p hp hnew
  exact ⟨hsettled, a, hwanted a ha, hleads⟩

theorem of_sameTypes (h : Stage x wanted t) (hsame : t.SameTypes u) : Stage x wanted u := by
  have hknown : x.known u = x.known t := by simp only [Site.known, ledger, hsame.resolved]
  refine ⟨⟨h.filling.sound.of_sameTypes hsame, h.filling.grown.trans hsame.extends⟩, ?_, ?_⟩
  · rw [hsame.resolved]
    exact h.backed
  · rw [hsame.resolved, hsame.model, hknown]
    exact h.settled

theorem log (h : Stage x wanted t) (e : Event) : Stage x wanted (t.log e) :=
  h.of_sameTypes ((State.SameTypes.refl t).log e)

/-- What has been resolved stands for other entries than the one being filled. -/
theorem ne_place (h : Stage x wanted t) {p : Term × NodeType} (hp : p ∈ t.resolved) :
    p.2 ≠ x.place := by
  intro heq
  have howner : t.model.owner? p.2 = some p.1 := h.sound.owner (List.mem_append_right _ hp)
  have hown : t.model.owner? x.place = some x.shape.1.identifier :=
    h.sound.owner (p := (x.shape.1.identifier, x.place))
      (List.mem_append_left _ List.mem_cons_self)
  rw [heq, hown] at howner
  have hdistinct := (List.nodup_cons.1 h.sound.distinct).1
  refine hdistinct (List.mem_map.2 ⟨p, ?_, (Option.some.inj howner).symm⟩)
  exact List.mem_append_right _ hp

/-- Filling the place leads to a further stage. -/
theorem refill {m : TypeModel} (h : Stage x wanted t)
    (hfilling : Filling x.namer (Found (g := g)) x.places x.start x.shape.1.identifier x.place
      { t with model := m })
    (houtline : m.outline = t.model.outline)
    (hentry : ∀ type, type ≠ x.place → t.model.KeepsEntry m type) :
    Stage x wanted { t with model := m } := by
  refine ⟨hfilling, h.backed, fun p hp hnew => ?_⟩
  obtain ⟨⟨r, hsettled⟩, hwanted⟩ := h.settled p hp hnew
  have hkept := hentry p.2 (h.ne_place hp)
  exact ⟨⟨r, hsettled.mono (.of_outline_eq houtline) hkept fun _ ha => ha⟩, hwanted⟩

end Stage

/-! ## How far an entry is filled -/

/-- A stage at which the entry is as described by `entry` and the node shapes
that have been met are all in the ledger. -/
structure Filled (x : Site g) (met : Term → Prop) (entry : TypeModel → Prop) (t : State) :
    Prop where
  stage : Stage x x.needs t
  entry : entry t.model
  met : ∀ a, met a → a ∈ x.known t

variable {met met' : Term → Prop} {E E' : TypeModel → Prop}

theorem Filled.mono (h : Filled x met E t) (hmet : ∀ a, met' a → met a)
    (hE : E t.model → E' t.model) : Filled x met' E' t :=
  ⟨h.stage, hE h.entry, fun a ha => h.met a (hmet a ha)⟩

/-- Resolving other node shapes leaves the entry as far as it is. -/
theorem Filled.extends (h : Filled x met E t) (hE : Lasting E) (hu : Stage x x.needs u)
    (hext : t.Extends u) : Filled x met E u :=
  ⟨hu, hE _ _ hext.model h.entry, fun a ha => Site.known_subset hext (h.met a ha)⟩

theorem Filled.of_sameTypes (h : Filled x met E t) (hE : Lasting E) (hsame : t.SameTypes u) :
    Filled x met E u := h.extends hE (h.stage.of_sameTypes hsame) hsame.extends

theorem Filled.log (h : Filled x met E t) (e : Event) : Filled x met E (t.log e) :=
  ⟨h.stage.log e, h.entry, h.met⟩

end Stages

end Resolver

end ShaclTypes
