import ShaclTypes.Proofs.Named
import ShaclTypes.Proofs.Redeclaring
import ShaclTypes.Proofs.WholeGraph
set_option autoImplicit false

/-!
# The order of declaration is of no account

Node shapes are resolved in the order in which they are declared, and the order
decides which of them are placeholders when others are typed, which failures undo
what, and which numbers the entries get.  None of this shows in the end: another
order fails if this one does, and otherwise gives the same entries up to their
numbers (`resolution_order_irrelevant`).
-/

namespace ShaclTypes

open ShaclTypes.Rdf

/-! ## The identifiers of a model -/

/-- The entry of a kind with a number; an object type is of no kind. -/
def NodeType.ofKind : Option CompositeKind → Nat → NodeType
  | none, i => .object ⟨i⟩
  | some kind, i => .composite kind ⟨i⟩

theorem NodeType.exists_ofKind (type : NodeType) : ∃ i, type = .ofKind type.compositeKind? i := by
  cases type with
  | object id => exact ⟨id.index, rfl⟩
  | composite kind id => exact ⟨id.index, rfl⟩

theorem NodeType.ofKind_injective {kind : Option CompositeKind} {i j : Nat}
    (h : NodeType.ofKind kind i = .ofKind kind j) : i = j := by
  cases kind with
  | none => exact congrArg ObjectId.index (NodeType.object.inj h)
  | some kind => exact congrArg CompositeId.index (NodeType.composite.inj h).2

@[simp] theorem NodeType.compositeKind?_ofKind (kind : Option CompositeKind) (i : Nat) :
    (NodeType.ofKind kind i).compositeKind? = kind := by
  cases kind <;> rfl

namespace TypeModel

variable {m : TypeModel} {kind : Option CompositeKind}

/-- The identifiers of the entries of a kind, in order. -/
def ownersOf (m : TypeModel) : Option CompositeKind → List Term
  | none => m.objects.map fun o => o.name.identifier
  | some kind => (m.composites kind).map fun c => c.name.identifier

theorem getElem?_ownersOf (m : TypeModel) (kind : Option CompositeKind) (i : Nat) :
    (m.ownersOf kind)[i]? = m.owner? (.ofKind kind i) := by
  cases kind with
  | none => simp only [ownersOf, List.getElem?_map, NodeType.ofKind, owner?, object?]
  | some kind => simp only [ownersOf, List.getElem?_map, NodeType.ofKind, owner?, composite?]

/-- An identifier is among those of a kind if an entry of the kind belongs to it. -/
theorem mem_ownersOf {t : Term} :
    t ∈ m.ownersOf kind ↔ ∃ type, type.compositeKind? = kind ∧ m.owner? type = some t := by
  rw [List.mem_iff_getElem?]
  constructor
  · intro hmem
    obtain ⟨i, hi⟩ := hmem
    rw [getElem?_ownersOf] at hi
    exact ⟨_, NodeType.compositeKind?_ofKind kind i, hi⟩
  · intro howned
    obtain ⟨type, rfl, howner⟩ := howned
    obtain ⟨i, hi⟩ := type.exists_ofKind
    refine ⟨i, ?_⟩
    rw [getElem?_ownersOf, ← hi]
    exact howner

end TypeModel

/-- In a sound state, no two entries have an identifier in common. -/
theorem Sound.ownersOf_nodup {g : ShapesGraph} {n : Namer} {admitted : g.Member → Prop}
    {places : List (Term × NodeType)} {s : State} (h : Sound n admitted places s)
    (kind : Option CompositeKind) : (s.model.ownersOf kind).Nodup := by
  refine List.nodup_iff_getElem?_ne_getElem?.2 fun i j hij hj heq => ?_
  rw [TypeModel.getElem?_ownersOf, TypeModel.getElem?_ownersOf] at heq
  have hheld : ((s.model.ownersOf kind)[j]?).isSome = true := by simpa using hj
  obtain ⟨t, ht⟩ := Option.isSome_iff_exists.1 hheld
  rw [TypeModel.getElem?_ownersOf] at ht
  have hsame := h.unique (h.listed _ _ (heq.trans ht)) (h.listed _ _ ht)
  exact Nat.ne_of_lt hij (NodeType.ofKind_injective hsame)

namespace Resolver

open ShapesGraph

variable {g : ShapesGraph} {settings : Settings} {s : State}

/-! ## What settled entries amount to -/

theorem AsExpected.compositeKind? {n : Namer} {R : Term → Prop} {m : TypeModel} {shape : Shape}
    {type : NodeType} (h : AsExpected g n R m shape type) :
    type.compositeKind? = shape.constraints.nodeComposition?.map Prod.fst := by
  cases type with
  | object id =>
    obtain ⟨o, hobject, -⟩ := h
    rw [hobject]
    rfl
  | composite kind id =>
    obtain ⟨c, members, hcomposite, -⟩ := h
    rw [hcomposite]
    rfl

namespace AllSettled

/-- The entries of a kind are those of the resolved node shapes of that kind. -/
theorem mem_ownersOf (h : AllSettled g settings s) {kind : Option CompositeKind} {t : Term} :
    t ∈ s.model.ownersOf kind ↔ t ∈ s.resolved.map Prod.fst ∧
      ∃ r, g.member? t = some r ∧ r.1.constraints.nodeComposition?.map Prod.fst = kind := by
  rw [TypeModel.mem_ownersOf]
  constructor
  · intro howned
    obtain ⟨type, rfl, howner⟩ := howned
    obtain ⟨r, hr⟩ := h.of_owner? howner
    have hlisted : (t, type) ∈ s.resolved := h.sound.listed type t howner
    exact ⟨List.mem_map.2 ⟨_, hlisted, rfl⟩, r, hr.member, hr.expected.compositeKind?.symm⟩
  · intro howned
    obtain ⟨ht, r, hmember, rfl⟩ := howned
    obtain ⟨p, hp, rfl⟩ := List.mem_map.1 ht
    obtain ⟨r', hr'⟩ := h.settled p hp
    obtain rfl : r' = r := Option.some.inj (hr'.member.symm.trans hmember)
    exact ⟨p.2, hr'.expected.compositeKind?, h.sound.owner hp⟩

/-- Up to its numbers, an object type is what is expected of its shape. -/
theorem named_object (h : AllSettled g settings s) {id : ObjectId} {o : ObjectType}
    (ho : s.model.object? id = some o) :
    ∃ r, g.member? o.name.identifier = some r ∧
      o.named s.model.owner? =
        (expectedObject g (namer g settings) (resolvableIn g .outermost) r.1).named g.slotName := by
  obtain ⟨r, hsettled, -, hreads⟩ := h.of_object? ho
  refine ⟨r, hsettled.member, ?_⟩
  rw [ObjectType.named_renumber (owner?_eq_slotName h.sound) o, hreads]

/-- Up to its numbers, a composite is what is expected of its shape. -/
theorem named_composite (h : AllSettled g settings s) {kind : CompositeKind} {id : CompositeId}
    {c : ObjectComposite} (hc : s.model.composite? kind id = some c) :
    ∃ r members, g.member? c.name.identifier = some r ∧
      r.1.constraints.nodeComposition? = some (kind, members) ∧
      c.named s.model.owner? =
        (expectedComposite g (namer g settings) (resolvableIn g .outermost) r.1 members).named
          g.slotName := by
  obtain ⟨r, members, hsettled, hcomposite, hreads⟩ := h.of_composite? hc
  refine ⟨r, members, hsettled.member, hcomposite, ?_⟩
  rw [ObjectComposite.named_renumber (owner?_eq_slotName h.sound) c, hreads]

end AllSettled

/-! ## Two orders -/

section Reordering

variable {declared : List Term} (h : ∀ t, t ∈ declared ↔ t ∈ g.declared)
include h

theorem resolvableIn_redeclare (scope : Scope) :
    resolvableIn (g.redeclare declared) scope = resolvableIn g scope := resolvable_redeclare h _

theorem mem_nodeShapes_redeclare (r : g.Member) :
    r ∈ (g.redeclare declared).nodeShapes ↔ r ∈ g.nodeShapes := by
  have hmember : (g.redeclare declared).nodeShapes = declared.filterMap g.member? := rfl
  rw [hmember, nodeShapes, List.mem_filterMap, List.mem_filterMap]
  exact exists_congr fun t => and_congr_left fun _ => h t

theorem reached_redeclare (t : Term) :
    Reached (g.redeclare declared) settings t ↔ Reached g settings t := by
  unfold Reached
  rw [resolvableIn_redeclare h, leads_redeclare h]
  exact exists_congr fun r => and_congr_left fun _ => mem_nodeShapes_redeclare h r

/-- Two models in which everything is settled, with entries for the same node
shapes, are alike. -/
theorem AllSettled.alike {s' : State} (hs : AllSettled g settings s)
    (hs' : AllSettled (g.redeclare declared) settings s')
    (hresolved : ∀ t, t ∈ s.resolved.map Prod.fst ↔ t ∈ s'.resolved.map Prod.fst) :
    s.model.Alike s'.model := by
  have howners : ∀ kind, (s.model.ownersOf kind).Perm (s'.model.ownersOf kind) := by
    intro kind
    refine (List.perm_ext_iff_of_nodup (hs.sound.ownersOf_nodup kind)
      (hs'.sound.ownersOf_nodup kind)).2 fun t => ?_
    rw [hs.mem_ownersOf, hs'.mem_ownersOf, hresolved]
    rfl
  refine ⟨howners none, fun kind => howners (some kind), ?_, ?_⟩
  · intro o ho o' ho' hname
    obtain ⟨id, hid⟩ := TypeModel.exists_object?_of_mem ho
    obtain ⟨id', hid'⟩ := TypeModel.exists_object?_of_mem ho'
    obtain ⟨r, hmember, hnamed⟩ := hs.named_object hid
    obtain ⟨r', hmember', hnamed'⟩ := hs'.named_object hid'
    rw [hname] at hmember
    obtain rfl : r = r' := Option.some.inj (hmember.symm.trans hmember')
    rw [hnamed, hnamed', resolvableIn_redeclare h, expectedObject_redeclare h]
    rfl
  · intro kind c hc c' hc' hname
    obtain ⟨id, hid⟩ := TypeModel.exists_composite?_of_mem hc
    obtain ⟨id', hid'⟩ := TypeModel.exists_composite?_of_mem hc'
    obtain ⟨r, members, hmember, hcomposite, hnamed⟩ := hs.named_composite hid
    obtain ⟨r', members', hmember', hcomposite', hnamed'⟩ := hs'.named_composite hid'
    rw [hname] at hmember
    obtain rfl : r = r' := Option.some.inj (hmember.symm.trans hmember')
    obtain rfl : members = members' :=
      (Prod.mk.inj (Option.some.inj (hcomposite.symm.trans hcomposite'))).2
    rw [hnamed, hnamed', resolvableIn_redeclare h]
    rfl

end Reordering

/-- Whether the resolution of a graph ends well does not depend on the order in
which the node shapes are declared.  If it does, then in any two orders the models
have entries for the same identifiers in the same lists, and the entries for an
identifier are the same once every number in them is replaced by the identifier of
the entry that has it. -/
theorem resolution_order_irrelevant (g : ShapesGraph) (settings : Settings)
    {declared : List Term} (h : g.declared.Perm declared) :
    match (resolveGraph g settings).1, (resolveGraph { g with declared } settings).1 with
    | .ok m, .ok m' => m.Alike m'
    | .error _, .error _ => True
    | _, _ => False := by
  have hsame : ∀ t, t ∈ declared ↔ t ∈ g.declared := fun t => h.mem_iff.symm
  have hspec := ensures_resolveAll g settings
  have hspec' := ensures_resolveAll (g.redeclare declared) settings
  rw [resolvableIn_redeclare hsame] at hspec'
  simp only [mem_nodeShapes_redeclare hsame, reached_redeclare hsame] at hspec'
  unfold resolveGraph
  cases hrun : outcome (resolveAll g settings) .empty with
  | mk result s =>
    cases hrun' : outcome (resolveAll (g.redeclare declared) settings) .empty with
    | mk result' s' =>
      cases result with
      | ok m =>
        obtain ⟨rfl, hs, hresolvable, hreached⟩ := hspec.ok rfl hrun
        cases result' with
        | ok m' =>
          obtain ⟨rfl, hs', -, hreached'⟩ := hspec'.ok rfl hrun'
          exact hs.alike hsame hs' fun t => (hreached t).trans (hreached' t).symm
        | error e' =>
          obtain ⟨r, hr, hfailed⟩ := hspec'.error rfl hrun'
          exact absurd (hresolvable r hr) hfailed
      | error e =>
        obtain ⟨r, hr, hfailed⟩ := hspec.error rfl hrun
        cases result' with
        | ok m' =>
          obtain ⟨-, -, hresolvable, -⟩ := hspec'.ok rfl hrun'
          exact absurd (hresolvable r hr) hfailed
        | error e' => trivial

/-! Two node shapes that refer to each other, so that the first to be resolved is a
placeholder when the second is typed. -/

/-- A property shape whose values are eggs. -/
def lays : Shape :=
  { identifier := .blank "lays", path := some (.predicate ⟨"urn:lays"⟩),
    constraints := { nodes := [.blank "egg"] } }

/-- A property shape whose values are hens. -/
def becomes : Shape :=
  { identifier := .blank "becomes", path := some (.predicate ⟨"urn:becomes"⟩),
    constraints := { nodes := [.blank "hen"] } }

def hen : Shape :=
  { identifier := .blank "hen", constraints := { properties := [lays.identifier] } }

def egg : Shape :=
  { identifier := .blank "egg", constraints := { properties := [becomes.identifier] } }

/-- The graph of the four, with the hen first. -/
def coop : ShapesGraph where
  shapes := [hen, egg, lays, becomes]
  declared := [hen.identifier, egg.identifier]
  hierarchy := .empty
  prefixes := .empty

theorem resolvable_coop (r : coop.Member) (hr : r ∈ coop.nodeShapes) :
    resolvableIn coop .outermost r.1.identifier := by
  obtain ⟨t, ht, hmember⟩ := List.mem_filterMap.1 hr
  have hidentifier : r.1.identifier = t := identifier_of_member? hmember
  have hrelatives : ∀ s : Shape, s.isClass = false → ∀ kinship, ∀ r ∈ coop.relatives kinship s,
      resolvableIn coop .outermost r.1.identifier := by
    intro s hclass kinship r hr
    rw [relatives, hclass] at hr
    cases hr
  rw [hidentifier]
  refine resolvable_iff.2 (.inr ⟨r, hmember, ?_⟩)
  rcases List.mem_cons.1 ht with rfl | ht
  · obtain rfl : ⟨hen, by simp [coop]⟩ = r := Option.some.inj hmember
    exact ⟨hrelatives _ rfl, _, rfl⟩
  · obtain rfl := List.mem_singleton.1 ht
    obtain rfl : ⟨egg, by simp [coop]⟩ = r := Option.some.inj hmember
    exact ⟨hrelatives _ rfl, _, rfl⟩

theorem resolveGraph_coop : ∃ m, (resolveGraph coop .standard).1 = .ok m := by
  have hspec := ensures_resolveAll coop .standard
  unfold resolveGraph
  cases hrun : outcome (resolveAll coop .standard) .empty with
  | mk result s =>
    cases result with
    | ok m => exact ⟨m, rfl⟩
    | error e =>
      obtain ⟨r, hr, hfailed⟩ := hspec.error rfl hrun
      exact absurd (resolvable_coop r hr) hfailed

theorem resolution_order_irrelevant_hen_egg :
    ∃ m m', (resolveGraph coop .standard).1 = .ok m ∧
      (resolveGraph { coop with declared := [egg.identifier, hen.identifier] } .standard).1 =
        .ok m' ∧ m.Alike m' := by
  have hperm : coop.declared.Perm [egg.identifier, hen.identifier] := List.Perm.swap _ _ []
  have halike := resolution_order_irrelevant coop .standard hperm
  obtain ⟨m, hm⟩ := resolveGraph_coop
  rw [hm] at halike
  cases hrun : (resolveGraph { coop with declared := [egg.identifier, hen.identifier] }
      .standard).1 with
  | ok m' =>
    rw [hrun] at halike
    exact ⟨m, m', hm, rfl, halike⟩
  | error e =>
    rw [hrun] at halike
    exact halike.elim

end Resolver

end ShaclTypes
