import Mathlib.Data.List.Nodup
import ShaclTypes.Proofs.Growth
set_option autoImplicit false

/-!
# The ledger of a resolution

The ledger lists every node shape that has an entry in the model, with its
entry: those under resolution, whose entries are placeholders, and those that
are resolved.  A state is `Sound` if ledger and model tell the same story: no
identifier is listed twice, every listed entry was made for the identifier it is
listed under, and every entry of the model is listed.

`State.Extends` says what a step may do to a state, and that going back to where
the step began undoes all of it (`State.Extends.rollback`).
-/

namespace ShaclTypes

open ShaclTypes.Rdf

/-! ## States that grow -/

namespace State

/-- The second state has the model and the resolved node shapes of the first. -/
structure SameTypes (s t : State) : Prop where
  model : t.model = s.model
  resolved : t.resolved = s.resolved

/-- The second state has all that the first has, unchanged, and the node shapes
resolved in between stand for entries that the first does not have. -/
structure Extends (s t : State) : Prop where
  model : s.model.Grows t.model
  resolved : ∃ new, t.resolved = new ++ s.resolved ∧ ∀ p ∈ new, s.model.extent.holds p.2 = false

theorem SameTypes.refl (s : State) : s.SameTypes s := ⟨rfl, rfl⟩

theorem SameTypes.trans {s t u : State} (h : s.SameTypes t) (h' : t.SameTypes u) :
    s.SameTypes u := ⟨h'.model.trans h.model, h'.resolved.trans h.resolved⟩

theorem SameTypes.log {s t : State} (h : s.SameTypes t) (e : Event) : s.SameTypes (t.log e) :=
  ⟨h.model, h.resolved⟩

theorem SameTypes.extends {s t : State} (h : s.SameTypes t) : s.Extends t := by
  refine ⟨?_, [], ?_, by simp⟩
  · rw [h.model]
    exact .refl _
  · rw [h.resolved, List.nil_append]

theorem Extends.refl (s : State) : s.Extends s := (SameTypes.refl s).extends

theorem Extends.log {s t : State} (h : s.Extends t) (e : Event) : s.Extends (t.log e) :=
  ⟨h.model, h.resolved⟩

theorem Extends.mem_resolved {s t : State} (h : s.Extends t) {p : Term × NodeType}
    (hp : p ∈ s.resolved) : p ∈ t.resolved := by
  obtain ⟨new, hnew, -⟩ := h.resolved
  rw [hnew]
  exact List.mem_append_right new hp

end State

namespace TypeModel

/-- What a model has, it still has when it has grown. -/
theorem Grows.holds {m m' : TypeModel} (h : m.Grows m') {type : NodeType}
    (hheld : m.extent.holds type = true) : m'.extent.holds type = true := by
  cases type with
  | object id =>
    have hlt : id.index < m.objects.length := of_decide_eq_true hheld
    exact decide_eq_true (Nat.lt_of_lt_of_le hlt h.objects.length_le)
  | composite kind id =>
    have hlt : id.index < m.extent.composites kind := of_decide_eq_true hheld
    have hle : m.extent.composites kind ≤ m'.extent.composites kind := by
      cases kind
      · exact (h.composites .intersection).length_le
      · exact (h.composites .union).length_le
    exact decide_eq_true (Nat.lt_of_lt_of_le hlt hle)

theorem Grows.outline {m m' : TypeModel} (h : m.Grows m') : m.outline.Grows m'.outline := by
  refine ⟨h.objects.map _, fun kind => ?_⟩
  cases kind
  · exact (h.composites .intersection).map _
  · exact (h.composites .union).map _

end TypeModel

namespace State

theorem Extends.trans {s₁ s₂ s₃ : State} (h₁ : s₁.Extends s₂) (h₂ : s₂.Extends s₃) :
    s₁.Extends s₃ := by
  obtain ⟨new₁, hnew₁, hfresh₁⟩ := h₁.resolved
  obtain ⟨new₂, hnew₂, hfresh₂⟩ := h₂.resolved
  refine ⟨h₁.model.trans h₂.model, new₂ ++ new₁, by rw [hnew₂, hnew₁, List.append_assoc], ?_⟩
  intro p hp
  rcases List.mem_append.1 hp with h | h
  · by_contra hheld
    have := hfresh₂ p h
    rw [h₁.model.holds (by simpa using hheld)] at this
    cases this
  · exact hfresh₁ p h

/-- Going back to where a step began undoes the step: what it added is dropped,
and nothing else is. -/
theorem Extends.rollback {s t : State} (h : s.Extends t)
    (hheld : ∀ p ∈ s.resolved, s.model.extent.holds p.2 = true) :
    s.SameTypes (t.rollback s.model.extent) := by
  refine ⟨h.model.truncate, ?_⟩
  obtain ⟨new, hnew, hfresh⟩ := h.resolved
  have hdropped : new.filter (fun p => s.model.extent.holds p.2) = [] := by
    simpa [List.filter_eq_nil_iff] using hfresh
  have hkept : s.resolved.filter (fun p => s.model.extent.holds p.2) = s.resolved := by
    rw [List.filter_eq_self]
    exact hheld
  simp only [State.rollback, hnew, List.filter_append, hdropped, hkept, List.nil_append]

end State

/-! ## Entries and the shapes they are made from -/

/-- An entry of a model is what a shape contributes, however far it is filled. -/
def TypeModel.MadeFrom (n : Namer) (s : Shape) (m : TypeModel) : NodeType → Prop
  | .object id =>
    s.constraints.nodeComposition? = none ∧ m.outline.object? id = some (n.objectType s)
  | .composite kind id =>
    (∃ members, s.constraints.nodeComposition? = some (kind, members)) ∧
      m.outline.composite? kind id = some (n.objectComposite s)

namespace TypeModel.MadeFrom

variable {n : Namer} {s : Shape} {m m' : TypeModel} {type : NodeType}

/-- An entry belongs to the shape that it is made from. -/
theorem owner (h : m.MadeFrom n s type) : m.owner? type = some s.identifier := by
  rw [← owner?_outline]
  cases type with
  | object id => simp only [owner?, h.2]; rfl
  | composite kind id => simp only [owner?, h.2]; rfl

theorem of_outline_eq (h : m.MadeFrom n s type) (heq : m'.outline = m.outline) :
    m'.MadeFrom n s type := by
  cases type with
  | object id => exact ⟨h.1, heq ▸ h.2⟩
  | composite kind id => exact ⟨h.1, heq ▸ h.2⟩

theorem grows (h : m.MadeFrom n s type) (hgrows : m.Grows m') : m'.MadeFrom n s type := by
  cases type with
  | object id => exact ⟨h.1, hgrows.outline.object? h.2⟩
  | composite kind id => exact ⟨h.1, hgrows.outline.composite? h.2⟩

/-- The shape decides what kind of entry it has. -/
theorem compositeKind? (h : m.MadeFrom n s type) :
    type.compositeKind? = s.constraints.nodeComposition?.map Prod.fst := by
  cases type with
  | object id => rw [h.1]; rfl
  | composite kind id =>
    obtain ⟨⟨members, hmembers⟩, -⟩ := h
    rw [hmembers]
    rfl

end TypeModel.MadeFrom

/-! ## Sound states -/

theorem mem_of_lookup {α : Type} {l : List (Term × α)} {identifier : Term} {a : α}
    (h : l.lookup identifier = some a) : (identifier, a) ∈ l := by
  obtain ⟨l₁, l₂, rfl, -⟩ := List.lookup_eq_some_iff.1 h
  exact List.mem_append_right _ List.mem_cons_self

/-- The node shapes that have an entry: first those under resolution, with their
placeholders, then those that are resolved. -/
def ledger (places : List (Term × NodeType)) (s : State) : List (Term × NodeType) :=
  places ++ s.resolved

section Soundness

variable {g : ShapesGraph} {n : Namer} {admitted : g.Member → Prop}
variable {places : List (Term × NodeType)} {s t : State}

/-- The ledger and the model of a state tell the same story.  `admitted` are the
shapes that entries may be made from. -/
structure Sound (n : Namer) (admitted : g.Member → Prop) (places : List (Term × NodeType))
    (s : State) : Prop where
  distinct : ((ledger places s).map Prod.fst).Nodup
  made : ∀ p ∈ ledger places s, ∃ shape : g.Member,
    admitted shape ∧ shape.1.identifier = p.1 ∧ s.model.MadeFrom n shape.1 p.2
  listed : ∀ type owner, s.model.owner? type = some owner → (owner, type) ∈ ledger places s

namespace Sound

/-- Only the outline of the model and the ledger matter. -/
theorem of_outline_eq (h : Sound n admitted places s) (hresolved : t.resolved = s.resolved)
    (houtline : t.model.outline = s.model.outline) : Sound n admitted places t := by
  have hledger : ledger places t = ledger places s := by simp only [ledger, hresolved]
  refine ⟨hledger ▸ h.distinct, ?_, ?_⟩
  · intro p hp
    obtain ⟨shape, hadmitted, hidentifier, hmade⟩ := h.made p (hledger ▸ hp)
    exact ⟨shape, hadmitted, hidentifier, hmade.of_outline_eq houtline⟩
  · intro type owner howner
    rw [← TypeModel.owner?_outline, houtline, TypeModel.owner?_outline] at howner
    rw [hledger]
    exact h.listed type owner howner

theorem of_sameTypes (h : Sound n admitted places s) (hsame : s.SameTypes t) :
    Sound n admitted places t :=
  h.of_outline_eq hsame.resolved (by rw [hsame.model])

theorem log (h : Sound n admitted places s) (e : Event) : Sound n admitted places (s.log e) :=
  h.of_sameTypes ((State.SameTypes.refl s).log e)

theorem owner (h : Sound n admitted places s) {p : Term × NodeType}
    (hp : p ∈ ledger places s) : s.model.owner? p.2 = some p.1 := by
  obtain ⟨shape, -, hidentifier, hmade⟩ := h.made p hp
  rw [← hidentifier]
  exact hmade.owner

theorem holds (h : Sound n admitted places s) {p : Term × NodeType}
    (hp : p ∈ ledger places s) : s.model.extent.holds p.2 = true :=
  TypeModel.holds_iff_owner.2 ⟨p.1, h.owner hp⟩

/-- An identifier is listed with one entry. -/
theorem unique (h : Sound n admitted places s) {identifier : Term} {type type' : NodeType}
    (hp : (identifier, type) ∈ ledger places s) (hp' : (identifier, type') ∈ ledger places s) :
    type = type' :=
  (Prod.mk.inj (List.inj_on_of_nodup_map h.distinct hp hp' rfl)).2

/-- Looking an identifier up in the ledger finds what is listed under it. -/
theorem lookup_eq_some (h : Sound n admitted places s) {identifier : Term} {type : NodeType} :
    (ledger places s).lookup identifier = some type ↔ (identifier, type) ∈ ledger places s := by
  refine ⟨mem_of_lookup, fun hlisted => ?_⟩
  have hsome := List.lookup_isSome_iff.2 ⟨_, hlisted, beq_self_eq_true identifier⟩
  obtain ⟨other, hother⟩ := Option.isSome_iff_exists.1 hsome
  rw [hother, h.unique (mem_of_lookup hother) hlisted]

/-- The order of the ledger is of no account. -/
theorem of_perm {places' : List (Term × NodeType)} (h : Sound n admitted places s)
    (hmodel : t.model = s.model) (hperm : (ledger places' t).Perm (ledger places s)) :
    Sound n admitted places' t := by
  refine ⟨(hperm.map Prod.fst).nodup_iff.2 h.distinct, ?_, ?_⟩
  · intro p hp
    rw [hmodel]
    exact h.made p (hperm.mem_iff.1 hp)
  · intro type owner howner
    rw [hmodel] at howner
    exact hperm.mem_iff.2 (h.listed type owner howner)

/-- What has been taken a place for is resolved once its resolution ends well. -/
theorem record {identifier : Term} {place : NodeType}
    (h : Sound n admitted ((identifier, place) :: places) s) :
    Sound n admitted places (s.record identifier place) :=
  h.of_perm rfl List.perm_middle

/-- Taking a place for a shape that has none. -/
theorem opened {shape : g.Member} {place : NodeType} {m : TypeModel}
    (h : Sound n admitted places s) (hadmitted : admitted shape)
    (hfresh : shape.1.identifier ∉ (ledger places s).map Prod.fst) (hgrows : s.model.Grows m)
    (hmade : m.MadeFrom n shape.1 place)
    (honly : ∀ type owner, m.owner? type = some owner →
      type = place ∨ s.model.owner? type = some owner) :
    Sound n admitted ((shape.1.identifier, place) :: places) { s with model := m } := by
  refine ⟨List.nodup_cons.2 ⟨hfresh, h.distinct⟩, ?_, ?_⟩
  · intro p hp
    rcases List.mem_cons.1 hp with rfl | hp
    · exact ⟨shape, hadmitted, rfl, hmade⟩
    · obtain ⟨other, hother, hidentifier, hold⟩ := h.made p hp
      exact ⟨other, hother, hidentifier, hold.grows hgrows⟩
  · intro type owner howner
    rcases honly type owner howner with rfl | hold
    · rw [hmade.owner] at howner
      rw [← Option.some.inj howner]
      exact List.mem_cons_self
    · exact List.mem_cons_of_mem _ (h.listed type owner hold)

end Sound

end Soundness

end ShaclTypes
