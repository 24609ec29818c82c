import ShaclTypes.Proofs.Inline
import ShaclTypes.Proofs.Ledger
import ShaclTypes.Proofs.Renumbering
set_option autoImplicit false

/-!
# The catalogue of a graph

The numbers of entries depend on the order of resolution; the identifiers of a
graph do not.  `ShapesGraph.catalogue` is the model in which every identifier has
the entry that its shape contributes, in a slot of its own, and
`ShapesGraph.numbering` translates the numbers of a model to those of the
catalogue.  In a sound state the translation keeps entries apart.

A reading of a type in the numbers of the catalogue stays the same while the
model is built further, since no entry ever changes its owner (`ReadsAs`).
-/

namespace ShaclTypes

open ShaclTypes.Rdf

/-! ## Slots -/

namespace ShapesGraph

variable (g : ShapesGraph)

/-- The identifiers of the shapes, each once. -/
def names : List Term := addAll [] g.identifiers

/-- The number of an identifier in the catalogue. -/
def number (identifier : Term) : Nat := g.names.idxOf identifier

/-- The slot of a shape in the catalogue. -/
def slot (s : g.Member) : NodeType :=
  match s.1.constraints.nodeComposition? with
  | some (kind, _) => .composite kind ⟨g.number s.1.identifier⟩
  | none => .object ⟨g.number s.1.identifier⟩

/-- The model in which every identifier has an object type that is not filled.
Composites are not looked into, so the catalogue does without them. -/
def catalogue (n : Namer) : TypeModel where
  objects := g.names.map fun t => (g.member? t).elim default fun s => n.objectType s.1

variable {g}

theorem mem_names {t : Term} : t ∈ g.names ↔ t ∈ g.identifiers := by
  simp [names, mem_addAll]

theorem Member.mem_names (s : g.Member) : s.1.identifier ∈ g.names :=
  ShapesGraph.mem_names.2 s.mem_identifiers

theorem number_lt {t : Term} (h : t ∈ g.names) : g.number t < g.names.length :=
  List.idxOf_lt_length_iff.2 h

/-- Different identifiers have different numbers. -/
theorem number_inj {t u : Term} (ht : t ∈ g.names) (h : g.number t = g.number u) : t = u :=
  (List.idxOf_inj ht).1 h

theorem catalogue_object? {n : Namer} {s : g.Member} (h : Found s) :
    (g.catalogue n).object? ⟨g.number s.1.identifier⟩ = some (n.objectType s.1) := by
  have hname : g.names[g.number s.1.identifier]? = some s.1.identifier :=
    List.getElem?_idxOf s.mem_names
  simp only [catalogue, TypeModel.object?, List.getElem?_map, hname, Option.map_some]
  rw [show g.member? s.1.identifier = some s from h, Option.elim_some]

end ShapesGraph

/-! ## Translating numbers -/

namespace TypeModel

/-- Every entry of the first model is an entry of the second, for the same shape. -/
def Retains (m m' : TypeModel) : Prop :=
  ∀ type owner, m.owner? type = some owner → m'.owner? type = some owner

theorem Retains.refl (m : TypeModel) : m.Retains m := fun _ _ h => h

theorem Retains.trans {m₁ m₂ m₃ : TypeModel} (h₁ : m₁.Retains m₂) (h₂ : m₂.Retains m₃) :
    m₁.Retains m₃ := fun type owner h => h₂ type owner (h₁ type owner h)

theorem Retains.of_outline_eq {m m' : TypeModel} (h : m'.outline = m.outline) :
    m.Retains m' := by
  intro type owner howner
  rw [← owner?_outline, h, owner?_outline]
  exact howner

theorem Grows.retains {m m' : TypeModel} (h : m.Grows m') : m.Retains m' := by
  intro type owner howner
  cases type with
  | object id =>
    obtain ⟨o, ho, rfl⟩ := Option.map_eq_some_iff.1 howner
    exact Option.map_eq_some_iff.2 ⟨o, h.object? ho, rfl⟩
  | composite kind id =>
    obtain ⟨c, hc, rfl⟩ := Option.map_eq_some_iff.1 howner
    exact Option.map_eq_some_iff.2 ⟨c, h.composite? hc, rfl⟩

end TypeModel

namespace ShapesGraph

variable {g : ShapesGraph} {n : Namer} {places : List (Term × NodeType)} {s : State}

/-- The number in the catalogue of an entry with an owner; numbers without an
entry go beyond the catalogue. -/
def slotOf (g : ShapesGraph) (owner : Option Term) (index : Nat) : Nat :=
  match owner with
  | some t => g.number t
  | none => g.names.length + index

/-- The numbers of a model in those of the catalogue. -/
def numbering (g : ShapesGraph) (m : TypeModel) : Renumbering where
  object id := ⟨g.slotOf (m.owner? (.object id)) id.index⟩
  composite kind id := ⟨g.slotOf (m.owner? (.composite kind id)) id.index⟩

/-- An entry of the right kind goes to the slot of its owner. -/
theorem renumber_eq_slot {m : TypeModel} {type : NodeType} {shape : g.Member}
    (hkind : type.compositeKind? = shape.1.constraints.nodeComposition?.map Prod.fst)
    (howner : m.owner? type = some shape.1.identifier) :
    type.renumber (g.numbering m) = g.slot shape := by
  unfold slot
  cases type with
  | object id =>
    have hobject : shape.1.constraints.nodeComposition? = none := by
      simpa [NodeType.compositeKind?] using hkind.symm
    simp only [hobject, NodeType.renumber, numbering, howner, slotOf]
  | composite kind id =>
    obtain ⟨⟨kind', members⟩, hcomposite, rfl⟩ := Option.map_eq_some_iff.1 hkind.symm
    simp only [hcomposite, NodeType.renumber, numbering, howner, slotOf]

/-- Who owns an entry is a shape of the graph. -/
theorem owner_mem_names {admitted : g.Member → Prop} (hs : Sound n admitted places s)
    {type : NodeType} {owner : Term} (h : s.model.owner? type = some owner) :
    owner ∈ g.names := by
  obtain ⟨shape, -, hidentifier, -⟩ := hs.made _ (hs.listed type owner h)
  have : owner = shape.1.identifier := hidentifier.symm
  exact this ▸ shape.mem_names

/-- In a sound state, entries of one kind with the same slot are the same. -/
theorem slotOf_injective {admitted : g.Member → Prop} (hs : Sound n admitted places s)
    {type type' : NodeType} {i i' : Nat}
    (h : g.slotOf (s.model.owner? type) i = g.slotOf (s.model.owner? type') i') :
    type = type' ∨ i = i' := by
  cases hi : s.model.owner? type with
  | none =>
    cases hi' : s.model.owner? type' with
    | none =>
      simp only [hi, hi', slotOf] at h
      exact .inr (by omega)
    | some owner' =>
      have hlt := number_lt (owner_mem_names hs hi')
      simp only [hi, hi', slotOf] at h
      omega
  | some owner =>
    have hmem := owner_mem_names hs hi
    cases hi' : s.model.owner? type' with
    | none =>
      have hlt := number_lt hmem
      simp only [hi, hi', slotOf] at h
      omega
    | some owner' =>
      simp only [hi, hi', slotOf] at h
      obtain rfl := number_inj hmem h
      exact .inl (hs.unique (hs.listed _ _ hi) (hs.listed _ _ hi'))

theorem numbering_injective {admitted : g.Member → Prop} (hs : Sound n admitted places s) :
    (g.numbering s.model).Injective := by
  constructor
  · rintro ⟨i⟩ ⟨j⟩ h
    rcases slotOf_injective hs (ObjectId.mk.inj h) with htype | hindex
    · exact NodeType.object.inj htype
    · exact congrArg _ hindex
  · rintro kind ⟨i⟩ ⟨j⟩ h
    rcases slotOf_injective hs (CompositeId.mk.inj h) with htype | hindex
    · exact (NodeType.composite.inj htype).2
    · exact congrArg _ hindex

/-- The catalogue knows which entries are external, as the model does. -/
theorem external?_renumber (hs : Sound n (Found (g := g)) places s) (type : NodeType) :
    (g.catalogue n).external? (type.renumber (g.numbering s.model)) = s.model.external? type := by
  cases type with
  | composite kind id => rfl
  | object id =>
    cases howner : s.model.owner? (.object id) with
    | none =>
      have hnone : s.model.object? id = none := by simpa [TypeModel.owner?] using howner
      have hbeyond : (g.catalogue n).object? ⟨g.names.length + id.index⟩ = none := by
        simp [catalogue, TypeModel.object?]
      simp only [NodeType.renumber, numbering, howner, slotOf, TypeModel.external?, hnone, hbeyond]
    | some owner =>
      obtain ⟨shape, hfound, hidentifier, hobject, hmade⟩ := hs.made _ (hs.listed _ _ howner)
      have hidentifier' : shape.1.identifier = owner := hidentifier
      rw [← TypeModel.external?_outline s.model]
      simp only [NodeType.renumber, numbering, howner, slotOf, TypeModel.external?, hmade]
      rw [← hidentifier', catalogue_object? hfound]

end ShapesGraph

/-! ## Readings that stay -/

section Readings

variable {α β : Type} {g : ShapesGraph} {m m' : TypeModel} {act : Renumbering → α → β}
variable {a : α} {b : β}

/-- In the model and in whatever it is built further into, `a` reads as `b` in
the numbers of the catalogue. -/
def ReadsAs (g : ShapesGraph) (m : TypeModel) (act : Renumbering → α → β) (a : α) (b : β) :
    Prop :=
  ∀ m', m.Retains m' → (g.numbering m').Injective → act (g.numbering m') a = b

theorem ReadsAs.mono (h : ReadsAs g m act a b) (hm : m.Retains m') : ReadsAs g m' act a b :=
  fun m'' hm'' hinj => h m'' (hm.trans hm'') hinj

theorem ReadsAs.now (h : ReadsAs g m act a b) (hinj : (g.numbering m).Injective) :
    act (g.numbering m) a = b := h m (.refl m) hinj

/-- What is computed in the same way from whatever the numbers are, reads so too. -/
theorem ReadsAs.map {γ δ : Type} {act' : Renumbering → γ → δ} {c : γ} {d : δ}
    (h : ReadsAs g m act a b)
    (hmap : ∀ ρ : Renumbering, ρ.Injective → act ρ a = b → act' ρ c = d) :
    ReadsAs g m act' c d :=
  fun m' hm' hinj => hmap _ hinj (h m' hm' hinj)

/-- Lists read element by element. -/
theorem ReadsAs.concat {as : List α} {bs : List β}
    (h : ReadsAs g m (fun ρ => List.map (act ρ)) as bs) (hlast : ReadsAs g m act a b) :
    ReadsAs g m (fun ρ => List.map (act ρ)) (as ++ [a]) (bs ++ [b]) := by
  intro m' hm' hinj
  have has : as.map (act (g.numbering m')) = bs := h m' hm' hinj
  simp only [List.map_append, List.map_cons, List.map_nil, has, hlast m' hm' hinj]

end Readings

namespace Sound

variable {g : ShapesGraph} {n : Namer} {places : List (Term × NodeType)} {s : State}

/-- An entry in the ledger reads as the slot of the shape that it stands for. -/
theorem readsAs_slot (h : Sound n (ShapesGraph.Found (g := g)) places s) {shape : g.Member}
    (hfound : ShapesGraph.Found shape) {type : NodeType}
    (hp : (shape.1.identifier, type) ∈ ledger places s) :
    ReadsAs g s.model NodeType.renumber type (g.slot shape) := by
  obtain ⟨shape', hfound', hidentifier, hmade⟩ := h.made _ hp
  obtain rfl := hfound'.ext hfound hidentifier
  exact fun m' hm' _ => ShapesGraph.renumber_eq_slot hmade.compositeKind? (hm' _ _ hmade.owner)

end Sound

end ShaclTypes
