import ShaclTypes.Proofs.Expected
set_option autoImplicit false

/-!
# The order of declaration

Resolving a shape asks which node shapes are declared, and never in which order, and it
asks for prefixes only where it names an entry.  So what it finds and how it types, from
the relatives of a shape to its inline shapes, is the same in two graphs that declare the
same node shapes, whatever their prefixes are (`ShapesGraph.reissue`).  With the same
prefixes, the entry that a shape is expected to have is the same too
(`ShapesGraph.redeclare`).  There is one lemma for each definition, from the bottom up.
-/

namespace ShaclTypes

open ShaclTypes.Rdf

namespace ShapesGraph

/-- The graph with another list of declared node shapes and with other prefixes. -/
abbrev reissue (g : ShapesGraph) (declared : List Term) (prefixes : PrefixMap) : ShapesGraph :=
  { g with declared, prefixes }

/-- The graph with another list of declared node shapes. -/
abbrev redeclare (g : ShapesGraph) (declared : List Term) : ShapesGraph := { g with declared }

variable {g : ShapesGraph} {declared : List Term} {prefixes : PrefixMap}

theorem member?_reissue (t : Term) : (g.reissue declared prefixes).member? t = g.member? t := rfl

theorem propertyShapes_reissue (s : Shape) :
    (g.reissue declared prefixes).propertyShapes s = g.propertyShapes s := by
  have hrequire : ∀ t, (g.reissue declared prefixes).require t = g.require t := by
    intro t
    unfold require
    rw [member?_reissue]
    cases g.member? t <;> rfl
  unfold propertyShapes
  rw [funext hrequire]

variable (h : ∀ t, t ∈ declared ↔ t ∈ g.declared)
include h

theorem isDeclared_reissue (t : Term) :
    (g.reissue declared prefixes).isDeclared t = g.isDeclared t := by
  rw [Bool.eq_iff_iff]
  simpa only [isDeclared, List.contains_iff_mem] using h t

theorem nodeShape?_reissue (t : Term) :
    (g.reissue declared prefixes).nodeShape? t = g.nodeShape? t := by
  unfold nodeShape?
  rw [isDeclared_reissue h]
  rfl

theorem relatives_reissue (kinship : Kinship) (s : Shape) :
    (g.reissue declared prefixes).relatives kinship s = g.relatives kinship s := by
  unfold relatives
  rw [funext (nodeShape?_reissue h)]

theorem buildable_redeclare (R : Term → Prop) (s : Shape) :
    (g.redeclare declared).Buildable R s ↔ g.Buildable R s := by
  have hslots : ∀ members, (g.redeclare declared).memberSlots R members = g.memberSlots R members :=
    fun _ => rfl
  unfold Buildable
  simp only [relatives_reissue h, propertyShapes_reissue, hslots]

theorem resolvable_redeclare (assumed : Term → Prop) :
    (g.redeclare declared).Resolvable assumed = g.Resolvable assumed := by
  unfold Resolvable
  congr 1
  ext R t
  simp only [supported, OrderHom.coe_mk, buildable_redeclare h]
  rfl

end ShapesGraph

namespace Resolver

open ShapesGraph

variable {g : ShapesGraph} {declared : List Term} {prefixes : PrefixMap}
variable (h : ∀ t, t ∈ declared ↔ t ∈ g.declared)
variable {resolve : NodeResolver g} {typer : ValueTyper g}
include h

theorem memberTypes_reissue (shape : Shape) (context : Inherited) (composition : Composition) :
    memberTypes (g := g.reissue declared prefixes) shape context resolve typer composition =
      memberTypes (g := g) shape context resolve typer composition := by
  have hrequire : ∀ t, requireMember (g.reissue declared prefixes) t = requireMember g t := by
    intro t
    unfold requireMember
    rw [member?_reissue]
    cases g.member? t <;> rfl
  have hmember : ∀ member,
      memberType (g := g.reissue declared prefixes) context resolve typer member =
        memberType (g := g) context resolve typer member := by
    intro member
    unfold memberType
    simp only [isDeclared_reissue h, hrequire]
  have hclass : ∀ cls, classType? (g := g.reissue declared prefixes) shape context resolve cls =
      classType? (g := g) shape context resolve cls := by
    intro cls
    unfold classType?
    rw [nodeShape?_reissue h]
    cases g.nodeShape? (.iri cls) <;> rfl
  have hnode : ∀ node, nodeReference (g := g.reissue declared prefixes) context resolve node =
      nodeReference (g := g) context resolve node := by
    intro node
    unfold nodeReference
    simp only [hrequire]
  cases composition with
  | conjunction members => simp only [memberTypes, hmember]
  | disjunction members => simp only [memberTypes, hmember]
  | nodes nodes => simp only [memberTypes, hnode]
  | classes classes => simp only [memberTypes, funext hclass]

theorem inlineType_reissue (trail : List Term) (inherited : Inherited) (shape : g.Member) :
    inlineType (g := g.reissue declared prefixes) resolve trail inherited shape =
      inlineType (g := g) resolve trail inherited shape := by
  induction trail, inherited, shape using inlineType.induct with
  | case1 trail inherited shape hmem => rw [inlineType, inlineType, if_pos hmem, if_pos hmem]
  | case2 trail inherited shape fresh ih =>
    rw [inlineType, inlineType, if_neg fresh, if_neg fresh]
    have htyper : (fun inherited s =>
          inlineType (g := g.reissue declared prefixes) resolve (shape.1.identifier :: trail)
            inherited s) =
        fun inherited s => inlineType (g := g) resolve (shape.1.identifier :: trail)
          inherited s := by
      funext inherited' s
      exact ih inherited' s
    rw [htyper]
    unfold typeWith itemType
    simp only [memberTypes_reissue h]

theorem catalogued_redeclare (n : Namer) (R : Term → Prop) (q : g.Member) :
    catalogued (g := g.redeclare declared) n R q = catalogued (g := g) n R q := by
  have htyper : inlineType (fromCatalogue (g.redeclare declared) R) [] =
      inlineType (fromCatalogue g R) [] := by
    funext inherited s
    exact inlineType_reissue h [] inherited s
  unfold catalogued
  rw [htyper]
  rfl

theorem expectedObject_redeclare (n : Namer) (R : Term → Prop) (s : Shape) :
    expectedObject (g.redeclare declared) n R s = expectedObject g n R s := by
  have hlinked : linkedObject (g.redeclare declared) n s = linkedObject g n s := by
    unfold linkedObject relativeSlots
    simp only [relatives_reissue h]
    rfl
  have htyped : typedObject (g.redeclare declared) n R s = typedObject g n R s := by
    unfold typedObject
    rw [hlinked]
    unfold expectedProperty?
    simp only [catalogued_redeclare h, propertyShapes_reissue]
  unfold expectedObject expectedItem?
  rw [htyped]
  rfl

theorem leads_redeclare (n : Namer) (R : Term → Prop) :
    Leads (g.redeclare declared) n R = Leads g n R := by
  have hneeds : ∀ s t, Needs (g.redeclare declared) n R s t ↔ Needs g n R s t := by
    intro s t
    unfold Needs asked
    simp only [relatives_reissue h, catalogued_redeclare h, propertyShapes_reissue,
      member?_reissue]
  unfold Leads
  simp only [hneeds]
  rfl

end Resolver

end ShaclTypes
