import Mathlib.Order.FixedPoints
import ShaclTypes.Proofs.Catalogue
set_option autoImplicit false

/-!
# Which node shapes can be resolved

A node shape under resolution counts as resolved for everything that leads back
to it.  So what can be resolved is the most that supports itself: `Resolvable` is
the greatest set of node shapes each of which is either assumed or can be built
from the others (`Buildable`).

Assumptions are harmless in the end.  A node shape that can be built while it is
assumed, could be built without the assumption, and assuming it then makes no
difference to anything else (`resolvable_insert_of_buildable`).  Hence a failure
under assumptions is final, and a success that is kept does not hang on any.
-/

namespace ShaclTypes

open ShaclTypes.Rdf

namespace ShapesGraph

variable {g : ShapesGraph} {R R' : Term → Prop}

/-! ## Building from what can be resolved -/

open Classical in
/-- What a member contributes to a composite: the slot of its object type, if it
is one and can be resolved. -/
noncomputable def memberSlot (g : ShapesGraph) (R : Term → Prop) (member : Term) :
    Option ObjectId :=
  if R member then (g.member? member).bind fun s => (g.slot s).object? else none

/-- The members of a composite, each once. -/
noncomputable def memberSlots (g : ShapesGraph) (R : Term → Prop) (members : List Term) :
    List ObjectId :=
  addAll [] (members.filterMap (g.memberSlot R))

theorem memberSlot_of_found {member : Term} {s : g.Member} (h : R member)
    (hs : g.member? member = some s) : g.memberSlot R member = (g.slot s).object? := by
  unfold memberSlot
  rw [if_pos h, hs, Option.bind_some]

theorem memberSlot_of_unknown {member : Term} (h : g.member? member = none) :
    g.memberSlot R member = none := by
  unfold memberSlot
  rw [h]
  split <;> rfl

theorem memberSlot_of_not {member : Term} (h : ¬R member) : g.memberSlot R member = none := by
  unfold memberSlot
  rw [if_neg h]

/-- One more member adds its slot, if it has one. -/
theorem memberSlots_concat (done : List Term) (member : Term) :
    g.memberSlots R (done ++ [member]) =
      addAll (g.memberSlots R done) (g.memberSlot R member).toList := by
  have hlast : [member].filterMap (g.memberSlot R) = (g.memberSlot R member).toList := by
    cases h : g.memberSlot R member <;> simp [h]
  rw [memberSlots, List.filterMap_append, addAll_append, hlast, memberSlots]

/-- A node shape can be built if, as a composite, it has two members or more and,
as an object type, all its relatives can be resolved and its property shapes are
there. -/
def Buildable (g : ShapesGraph) (R : Term → Prop) (s : Shape) : Prop :=
  match s.constraints.nodeComposition? with
  | some (_, members) => 2 ≤ (g.memberSlots R members).length
  | none =>
    (∀ kinship, ∀ r ∈ g.relatives kinship s, R r.1.identifier) ∧
      ∃ properties, g.propertyShapes s = .ok properties

theorem memberSlot_mono (h : R ≤ R') {member : Term} {id : ObjectId}
    (hid : g.memberSlot R member = some id) : g.memberSlot R' member = some id := by
  unfold memberSlot at hid ⊢
  split at hid
  · next hmember =>
    rw [if_pos (h member hmember)]
    exact hid
  · cases hid

theorem Buildable.mono (h : R ≤ R') {s : Shape} (hs : g.Buildable R s) : g.Buildable R' s := by
  unfold Buildable at hs ⊢
  split
  · next kind members hcomposite =>
    rw [hcomposite] at hs
    have hsub : g.memberSlots R members ⊆ g.memberSlots R' members := by
      intro id hid
      simp only [memberSlots, mem_addAll, List.mem_filterMap] at hid ⊢
      obtain hnil | ⟨member, hmember, hid⟩ := hid
      · cases hnil
      · exact .inr ⟨member, hmember, memberSlot_mono h hid⟩
    have hnodup : (g.memberSlots R members).Nodup := nodup_addAll List.nodup_nil _
    exact Nat.le_trans hs (hnodup.length_le_of_subset hsub)
  · next hobject =>
    rw [hobject] at hs
    exact ⟨fun kinship r hr => h _ (hs.1 kinship r hr), hs.2⟩

theorem length_addAll_le {α : Type} [DecidableEq α] (xs more : List α) :
    (addAll xs more).length ≤ xs.length + more.length := by
  induction more generalizing xs with
  | nil => simp
  | cons a more ih =>
    have hnew : (addNew xs a).length ≤ xs.length + 1 := by
      unfold addNew
      split <;> simp
    have := ih (addNew xs a)
    simp only [addAll_cons, List.length_cons]
    omega

/-- A composite that can be built declares two members or more. -/
theorem Buildable.two_le_length {s : Shape} {kind : CompositeKind} {members : List Term}
    (hs : g.Buildable R s) (hcomposite : s.constraints.nodeComposition? = some (kind, members)) :
    2 ≤ members.length := by
  unfold Buildable at hs
  rw [hcomposite] at hs
  have hle : (g.memberSlots R members).length ≤ members.length := by
    have hadded := length_addAll_le [] (members.filterMap (g.memberSlot R))
    have hfiltered := List.length_filterMap_le (g.memberSlot R) members
    simp only [List.length_nil] at hadded
    exact Nat.le_trans hadded (by omega)
  exact Nat.le_trans hs hle

/-! ## The most that supports itself -/

/-- One round: what is assumed, and what can be built from a set. -/
def supported (g : ShapesGraph) (assumed : Term → Prop) : (Term → Prop) →o (Term → Prop) where
  toFun R t := assumed t ∨ ∃ s, g.member? t = some s ∧ g.Buildable R s.1
  monotone' := by
    rintro R R' h t (ht | ⟨s, hs, hbuildable⟩)
    · exact .inl ht
    · exact .inr ⟨s, hs, hbuildable.mono h⟩

/-- The node shapes that can be resolved while some are assumed to be. -/
def Resolvable (g : ShapesGraph) (assumed : Term → Prop) : Term → Prop :=
  (g.supported assumed).gfp

variable {assumed assumed' : Term → Prop} {t : Term}

/-- What can be resolved is assumed or can be built. -/
theorem resolvable_iff : g.Resolvable assumed t ↔
    assumed t ∨ ∃ s, g.member? t = some s ∧ g.Buildable (g.Resolvable assumed) s.1 := by
  have hfixed := congrFun (g.supported assumed).map_gfp t
  rw [Resolvable, ← hfixed]
  rfl

theorem resolvable_of_assumed (h : assumed t) : g.Resolvable assumed t :=
  resolvable_iff.2 (.inl h)

/-- A set that supports itself can be resolved. -/
theorem le_resolvable (h : ∀ t, R t → assumed t ∨ ∃ s, g.member? t = some s ∧ g.Buildable R s.1) :
    R ≤ g.Resolvable assumed := (g.supported assumed).le_gfp h

theorem resolvable_mono (h : assumed ≤ assumed') : g.Resolvable assumed ≤ g.Resolvable assumed' :=
  le_resolvable fun _ ht => (resolvable_iff.1 ht).imp_left (h _)

/-- A node shape that can be built while it is assumed can be resolved without
the assumption, which then makes no difference. -/
theorem resolvable_insert_of_buildable {s : g.Member} (hs : g.member? t = some s)
    (h : g.Buildable (g.Resolvable fun u => u = t ∨ assumed u) s.1) :
    (g.Resolvable fun u => u = t ∨ assumed u) = g.Resolvable assumed := by
  refine le_antisymm (le_resolvable fun u hu => ?_) (resolvable_mono fun _ hu => .inr hu)
  rcases resolvable_iff.1 hu with (rfl | hassumed) | hbuildable
  · exact .inr ⟨s, hs, h⟩
  · exact .inl hassumed
  · exact .inr hbuildable

/-- A node shape that can be resolved but is not assumed can be built, also while
it is assumed. -/
theorem Resolvable.buildable {s : g.Member} (h : g.Resolvable assumed t) (ht : ¬assumed t)
    (hs : g.member? t = some s) :
    g.Buildable (g.Resolvable fun u => u = t ∨ assumed u) s.1 := by
  rcases resolvable_iff.1 h with hassumed | ⟨s', hs', hbuildable⟩
  · exact absurd hassumed ht
  · obtain rfl : s' = s := Option.some.inj (hs'.symm.trans hs)
    exact hbuildable.mono (resolvable_mono fun _ hu => .inr hu)

end ShapesGraph

end ShaclTypes
