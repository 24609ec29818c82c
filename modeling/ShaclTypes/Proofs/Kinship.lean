import Mathlib.Logic.Relation
import Mathlib.Tactic.ByContra
import ShaclTypes.Shape.ClassHierarchy
set_option autoImplicit false

/-!
# Kinship of classes

A search that goes out from a term by way of its neighbours finds what can be reached
from it, apart from the term itself, and each of these terms once (`mem_closure`).  In a
hierarchy, superclasses and subclasses are recorded together, and so the two searches
go the same ways in opposite directions (`ClassHierarchy.Linked.coherent`).  What is
above a class in the hierarchy of a store is what the statements put there
(`ClassHierarchy.mem_ancestors_ofStore`).
-/

namespace ShaclTypes

open ShaclTypes.Rdf ShaclTypes.Vocabulary

/-! ## Searches -/

namespace Adjacency

variable {m : Adjacency} {visited frontier : List Term}

/-- From the first term, the second is one step away. -/
def Step (m : Adjacency) (t neighbour : Term) : Prop := neighbour ∈ m.neighbours t

theorem nodup_fresh (m : Adjacency) (visited frontier : List Term) :
    (m.fresh visited frontier).Nodup :=
  (nodup_addAll List.nodup_nil _).filter _

/-- A way out of what has been visited leaves it somewhere. -/
theorem exists_exit {v a : Term} (hway : Relation.ReflTransGen m.Step v a) (hv : v ∈ visited)
    (ha : a ∉ visited) :
    ∃ last ∈ visited, ∃ next, next ∉ visited ∧ m.Step last next ∧
      Relation.ReflTransGen m.Step next a := by
  induction hway using Relation.ReflTransGen.head_induction_on with
  | refl => exact absurd hv ha
  | @head v w hstep hrest ih =>
    by_cases hw : w ∈ visited
    · exact ih hw
    · exact ⟨v, hv, w, hw, hstep, hrest⟩

/-- The search is at its frontier: from what it has visited before, it has gone on. -/
structure AtFrontier (m : Adjacency) (visited frontier : List Term) : Prop where
  within : frontier ⊆ visited
  explored : ∀ v ∈ visited, v ∉ frontier → m.neighbours v ⊆ visited

/-- After a round the search is at the frontier of what it has found. -/
theorem AtFrontier.next (h : m.AtFrontier visited frontier) :
    m.AtFrontier (visited ++ m.fresh visited frontier) (m.fresh visited frontier) := by
  refine ⟨List.subset_append_right _ _, fun v hv hold a ha => ?_⟩
  rw [List.mem_append]
  have hvisited : v ∈ visited := (List.mem_append.1 hv).resolve_right hold
  by_cases hknown : a ∈ visited
  · exact .inl hknown
  · by_cases hfrontier : v ∈ frontier
    · exact .inr (mem_fresh.2 ⟨⟨v, hfrontier, ha⟩, hknown⟩)
    · exact .inl (h.explored v hvisited hfrontier ha)

/-- What a round finds is the next step on every way out. -/
theorem AtFrontier.exists_fresh (h : m.AtFrontier visited frontier) {f a : Term}
    (hf : f ∈ frontier) (hway : Relation.ReflTransGen m.Step f a) (ha : a ∉ visited) :
    ∃ next ∈ m.fresh visited frontier, Relation.ReflTransGen m.Step next a := by
  obtain ⟨last, hlast, next, hnext, hstep, hrest⟩ := exists_exit hway (h.within hf) ha
  have hfrontier : last ∈ frontier := by
    by_contra hold
    exact hnext (h.explored last hlast hold hstep)
  exact ⟨next, mem_fresh.2 ⟨⟨last, hfrontier, hstep⟩, hnext⟩, hrest⟩

/-- From its frontier, the search finds all that can be reached and has not been visited. -/
theorem AtFrontier.mem_spread (h : m.AtFrontier visited frontier) {a : Term} :
    a ∈ m.spread visited frontier ↔
      a ∉ visited ∧ ∃ f ∈ frontier, Relation.ReflTransGen m.Step f a := by
  -- round by round: each starts at a frontier again, and nothing is left when one finds nothing
  fun_induction spread m visited frontier with
  | case1 visited frontier hnone =>
    refine ⟨fun hmem => absurd hmem List.not_mem_nil, fun ⟨ha, f, hf, hway⟩ => ?_⟩
    obtain ⟨next, hnext, -⟩ := h.exists_fresh hf hway ha
    rw [hnone] at hnext
    cases hnext
  | case2 visited frontier first more hfresh ih =>
    have hnext := h.next
    have hfind := fun f hf hway ha => h.exists_fresh (f := f) (a := a) hf hway ha
    have hmem : ∀ x, x ∈ first :: more ↔ x ∈ m.fresh visited frontier := fun x => by rw [hfresh]
    rw [hfresh] at hnext hfind
    rw [List.mem_append, ih hnext, List.mem_append, not_or]
    constructor
    · rintro (hfound | ⟨⟨hvisited, -⟩, f, hf, hway⟩)
      · obtain ⟨⟨f, hf, hstep⟩, hvisited⟩ := mem_fresh.1 ((hmem a).1 hfound)
        exact ⟨hvisited, f, hf, .single hstep⟩
      · obtain ⟨⟨f', hf', hstep⟩, -⟩ := mem_fresh.1 ((hmem f).1 hf)
        exact ⟨hvisited, f', hf', .head hstep hway⟩
    · rintro ⟨hvisited, f, hf, hway⟩
      by_cases hfound : a ∈ first :: more
      · exact .inl hfound
      · exact .inr ⟨⟨hvisited, hfound⟩, hfind f hf hway hvisited⟩

theorem AtFrontier.nodup_spread (h : m.AtFrontier visited frontier) :
    (m.spread visited frontier).Nodup := by
  fun_induction spread m visited frontier with
  | case1 => exact List.nodup_nil
  | case2 visited frontier first more hfresh ih =>
    have hnext := h.next
    have hnodup := m.nodup_fresh visited frontier
    rw [hfresh] at hnext hnodup
    refine List.nodup_append.2 ⟨hnodup, ih hnext, fun a ha b hb => ?_⟩
    rintro rfl
    exact (hnext.mem_spread.1 hb).1 (List.mem_append_right _ ha)

theorem atFrontier_singleton (m : Adjacency) (t : Term) : m.AtFrontier [t] [t] :=
  ⟨fun _ h => h, fun _ hv hold => absurd hv hold⟩

/-- A closure has what can be reached, apart from the term itself. -/
theorem mem_closure {t a : Term} :
    a ∈ m.closure t ↔ a ≠ t ∧ Relation.ReflTransGen m.Step t a := by
  rw [closure, (atFrontier_singleton m t).mem_spread]
  simp only [List.mem_singleton, exists_eq_left, ne_eq]

theorem nodup_closure (m : Adjacency) (t : Term) : (m.closure t).Nodup :=
  (atFrontier_singleton m t).nodup_spread

theorem mem_neighbours_link {t neighbour other a : Term} :
    a ∈ (m.link t neighbour).neighbours other ↔
      a ∈ m.neighbours other ∨ other = t ∧ a = neighbour := by
  rw [neighbours_link]
  split
  · next h => rw [mem_addNew, h]; simp
  · next h => simp [h]

theorem nodup_link (h : ∀ t, (m.neighbours t).Nodup) (t neighbour other : Term) :
    ((m.link t neighbour).neighbours other).Nodup := by
  rw [neighbours_link]
  split
  · exact nodup_addNew (h t) neighbour
  · exact h other

end Adjacency

/-! ## Hierarchies -/

namespace Kinship

/-- How the second is related to the first, if the first is related to the second in this way. -/
def converse : Kinship → Kinship
  | parent => child
  | child => parent
  | ancestor => descendant
  | descendant => ancestor

/-- The kinship through any number of steps. -/
def transitive : Kinship → Kinship
  | parent => ancestor
  | child => descendant
  | ancestor => ancestor
  | descendant => descendant

end Kinship

/-- Among the statements is one that the first is a subclass of the second. -/
def StatedSubclass (statements : List Triple) (c d : Term) : Prop :=
  ⟨c, rdfs.subClassOf, d⟩ ∈ statements

namespace ClassHierarchy

/-- The relatives of all classes agree with each other. -/
structure Coherent (h : ClassHierarchy) : Prop where
  converse : ∀ (kinship : Kinship) c d,
    d ∈ h.relatives kinship c → c ∈ h.relatives kinship.converse d
  direct : ∀ (kinship : Kinship) c d,
    d ∈ h.relatives kinship c → d ∈ h.relatives kinship.transitive c
  trans : ∀ (kinship : Kinship) c d e, d ∈ h.relatives kinship.transitive c →
    e ∈ h.relatives kinship.transitive d → e ≠ c → e ∈ h.relatives kinship.transitive c
  irrefl : ∀ kinship c, c ∉ h.relatives kinship c
  distinct : ∀ kinship c, (h.relatives kinship c).Nodup

/-- The two directions record the same, no class is beside itself, and none twice. -/
structure Linked (h : ClassHierarchy) : Prop where
  reciprocal : ∀ c d, h.above.Step c d ↔ h.below.Step d c
  irrefl : ∀ c, ¬h.above.Step c c
  above : ∀ c, (h.above.neighbours c).Nodup
  below : ∀ c, (h.below.neighbours c).Nodup

theorem linked_empty : Linked .empty := by
  have hnone : ∀ t, Adjacency.neighbours ∅ t = [] := fun t => Std.TreeMap.getD_emptyc
  refine ⟨?_, ?_, ?_, ?_⟩ <;> intros <;> simp [Adjacency.Step, empty, hnone]

/-- Recording one more subclass keeps the two directions linked. -/
theorem Linked.addEdge {h : ClassHierarchy} (hlinked : h.Linked) (child parent : Term) :
    (h.addEdge child parent).Linked := by
  unfold ClassHierarchy.addEdge
  split
  · exact hlinked
  · next hne =>
    refine ⟨fun c d => ?_, fun c => ?_, Adjacency.nodup_link hlinked.above child parent,
      Adjacency.nodup_link hlinked.below parent child⟩
    · simp only [Adjacency.Step, Adjacency.mem_neighbours_link]
      exact or_congr (hlinked.reciprocal c d) and_comm
    · simp only [Adjacency.Step, Adjacency.mem_neighbours_link, not_or]
      refine ⟨hlinked.irrefl c, ?_⟩
      rintro ⟨rfl, heq⟩
      exact hne heq

theorem Linked.addEdges {h : ClassHierarchy} (hlinked : h.Linked) (edges : List (Term × Term)) :
    (h.addEdges edges).Linked := by
  induction edges generalizing h with
  | nil => exact hlinked
  | cons edge edges ih => exact ih (hlinked.addEdge edge.1 edge.2)

section Linked

variable {h : ClassHierarchy} (hlinked : h.Linked)
include hlinked

/-- The ways down are the ways up in the opposite direction. -/
theorem Linked.reflTransGen_iff {c d : Term} :
    Relation.ReflTransGen h.above.Step c d ↔ Relation.ReflTransGen h.below.Step d c := by
  have hswap : h.below.Step = Function.swap h.above.Step := by
    funext d c
    exact propext (hlinked.reciprocal c d).symm
  rw [hswap, Relation.reflTransGen_swap]

/-- Where the two directions are linked, all relatives agree with each other. -/
theorem Linked.coherent : h.Coherent := by
  have hirrefl : ∀ c, ¬h.below.Step c c :=
    fun c hc => hlinked.irrefl c ((hlinked.reciprocal c c).2 hc)
  have hreach : ∀ {m : Adjacency}, (∀ c, ¬m.Step c c) → ∀ {c d}, m.Step c d → d ∈ m.closure c := by
    intro m hirrefl c d hstep
    refine Adjacency.mem_closure.2 ⟨?_, .single hstep⟩
    rintro rfl
    exact hirrefl _ hstep
  have htrans : ∀ {m : Adjacency} {c d e : Term}, d ∈ m.closure c → e ∈ m.closure d → e ≠ c →
      e ∈ m.closure c := by
    intro m c d e hd he hne
    exact Adjacency.mem_closure.2
      ⟨hne, (Adjacency.mem_closure.1 hd).2.trans (Adjacency.mem_closure.1 he).2⟩
  refine ⟨?_, ?_, ?_, ?_, ?_⟩
  · rintro (_ | _ | _ | _) c d hd
    · exact (hlinked.reciprocal c d).1 hd
    · exact (hlinked.reciprocal d c).2 hd
    · obtain ⟨hne, hway⟩ := Adjacency.mem_closure.1 hd
      exact Adjacency.mem_closure.2 ⟨hne.symm, hlinked.reflTransGen_iff.1 hway⟩
    · obtain ⟨hne, hway⟩ := Adjacency.mem_closure.1 hd
      exact Adjacency.mem_closure.2 ⟨hne.symm, hlinked.reflTransGen_iff.2 hway⟩
  · rintro (_ | _ | _ | _) c d hd
    · exact hreach hlinked.irrefl hd
    · exact hreach hirrefl hd
    · exact hd
    · exact hd
  · rintro (_ | _ | _ | _) c d e hd he hne <;> exact htrans hd he hne
  · rintro (_ | _ | _ | _) c hc
    · exact hlinked.irrefl c hc
    · exact hirrefl c hc
    · exact (Adjacency.mem_closure.1 hc).1 rfl
    · exact (Adjacency.mem_closure.1 hc).1 rfl
  · rintro (_ | _ | _ | _) c
    · exact hlinked.above c
    · exact hlinked.below c
    · exact Adjacency.nodup_closure _ c
    · exact Adjacency.nodup_closure _ c

end Linked

/-! ## Hierarchies of stores -/

/-- Recording subclasses adds them as they are, apart from classes below themselves. -/
theorem above_step_addEdges {h : ClassHierarchy} {edges : List (Term × Term)} {c d : Term} :
    (h.addEdges edges).above.Step c d ↔ h.above.Step c d ∨ (c, d) ∈ edges ∧ d ≠ c := by
  induction edges generalizing h with
  | nil => simp [addEdges]
  | cons edge edges ih =>
    obtain ⟨child, parent⟩ := edge
    have hfirst : (h.addEdge child parent).above.Step c d ↔
        h.above.Step c d ∨ (c, d) = (child, parent) ∧ d ≠ c := by
      unfold addEdge
      split
      · next heq =>
        refine (or_iff_left ?_).symm
        rintro ⟨hedge, hne⟩
        obtain ⟨rfl, rfl⟩ := Prod.mk.inj hedge
        exact hne heq.symm
      · next hne =>
        simp only [Adjacency.Step, Adjacency.mem_neighbours_link, Prod.mk.injEq]
        refine or_congr_right ⟨?_, And.left⟩
        rintro ⟨rfl, rfl⟩
        exact ⟨⟨rfl, rfl⟩, Ne.symm hne⟩
    have hrest : (h.addEdges ((child, parent) :: edges)).above.Step c d ↔
        (h.addEdge child parent).above.Step c d ∨ (c, d) ∈ edges ∧ d ≠ c := ih
    rw [hrest, hfirst, List.mem_cons, or_assoc, or_and_right]

variable {s : TripleStore} {c d : Term}

theorem above_step_ofStore : (ofStore s).above.Step c d ↔ StatedSubclass s.toList c d ∧ d ≠ c := by
  have hnone : ¬empty.above.Step c d := by simp [Adjacency.Step, empty, Adjacency.neighbours]
  rw [ofStore, above_step_addEdges, or_iff_right hnone]
  refine and_congr_left fun _ => ?_
  simp only [List.mem_map, List.mem_filter, beq_iff_eq, Prod.mk.injEq, StatedSubclass]
  constructor
  · rintro ⟨⟨_, _, _⟩, ⟨hmem, rfl⟩, rfl, rfl⟩
    exact hmem
  · exact fun hmem => ⟨_, ⟨hmem, rfl⟩, rfl, rfl⟩

/-- The parents of a class are its stated superclasses, apart from itself. -/
theorem mem_parents_ofStore : d ∈ (ofStore s).relatives .parent c ↔
    d ≠ c ∧ StatedSubclass s.toList c d :=
  above_step_ofStore.trans and_comm

/-- The ancestors of a class are what is above it by statements, apart from itself. -/
theorem mem_ancestors_ofStore : d ∈ (ofStore s).relatives .ancestor c ↔
    d ≠ c ∧ Relation.TransGen (StatedSubclass s.toList) c d := by
  have hway : Relation.ReflTransGen (ofStore s).above.Step c d ↔
      Relation.ReflTransGen (StatedSubclass s.toList) c d := by
    constructor
    · exact Relation.ReflTransGen.mono (fun _ _ hstep => (above_step_ofStore.1 hstep).1) c d
    · refine fun h => h.lift' id fun a b hstated => ?_
      by_cases heq : b = a
      · exact heq ▸ .refl
      · exact .single (above_step_ofStore.2 ⟨hstated, heq⟩)
  refine Adjacency.mem_closure.trans (and_congr_right fun hne => ?_)
  rw [hway, Relation.reflTransGen_iff_eq_or_transGen, or_iff_right hne]

/-- Whatever subclass statements a store has, the hierarchy that is read off them is coherent. -/
theorem coherent_ofStore (s : TripleStore) : Coherent (.ofStore s) :=
  (linked_empty.addEdges _).coherent

end ClassHierarchy

end ShaclTypes
