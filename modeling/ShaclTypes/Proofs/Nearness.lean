import ShaclTypes.Proofs.Kinship
set_option autoImplicit false

/-!
# Nearer classes first

A search goes out in rounds, and what a round finds is as many steps away as rounds have
been made: all of it, and nothing that could be reached in fewer (`AtRound.next`).  So a
closure lists what is nearer before what is farther, and the relatives of a class in a
hierarchy that is built edge by edge are what the edges say (`closure_exact`).
-/

namespace ShaclTypes

open ShaclTypes.Rdf

/-! ## Distances -/

section Distance

variable {α : Type} {r : α → α → Prop} {start a : α} {n : Nat}

/-- From the start, so many steps lead to the last. -/
inductive Reaches (r : α → α → Prop) (start : α) : Nat → α → Prop
  | refl : Reaches r start 0 start
  | tail {n : Nat} {b a : α} (way : Reaches r start n b) (step : r b a) : Reaches r start (n + 1) a

/-- From the start, so many steps lead to the last, and no fewer. -/
structure IsDistance (r : α → α → Prop) (start a : α) (n : Nat) : Prop where
  reaches : Reaches r start n a
  least : ∀ k, Reaches r start k a → n ≤ k

/-- Both can be reached from the start, and the shortest way to the first is no longer than
that to the second. -/
def NoFarther (r : α → α → Prop) (start a b : α) : Prop :=
  ∃ n k, IsDistance r start a n ∧ IsDistance r start b k ∧ n ≤ k

theorem isDistance_zero : IsDistance r start a 0 ↔ a = start := by
  constructor
  · rintro ⟨⟨⟩, -⟩
    rfl
  · rintro rfl
    exact ⟨.refl, fun _ _ => Nat.zero_le _⟩

/-- What is one step farther is a step away from something at the distance before. -/
theorem IsDistance.exists_step (h : IsDistance r start a (n + 1)) :
    ∃ b, IsDistance r start b n ∧ r b a := by
  obtain ⟨way, hleast⟩ := h
  cases way with
  | tail way step =>
    exact ⟨_, ⟨way, fun k hk => Nat.le_of_succ_le_succ (hleast _ (hk.tail step))⟩, step⟩

end Distance

/-! ## Rounds of a search -/

namespace Adjacency

variable {m : Adjacency} {start : Term} {n : Nat} {visited frontier : List Term}

/-- After so many rounds, the search has visited what can be reached in as many steps, and
its frontier is what cannot be reached in fewer. -/
structure AtRound (m : Adjacency) (start : Term) (n : Nat) (visited frontier : List Term) :
    Prop where
  visited : ∀ t, t ∈ visited ↔ ∃ k ≤ n, Reaches m.Step start k t
  frontier : ∀ t, t ∈ frontier ↔ IsDistance m.Step start t n

theorem atRound_zero (m : Adjacency) (start : Term) : m.AtRound start 0 [start] [start] := by
  refine ⟨fun t => ?_, fun t => ?_⟩
  · rw [List.mem_singleton]
    constructor
    · rintro rfl
      exact ⟨0, Nat.le_refl 0, .refl⟩
    · rintro ⟨k, hk, way⟩
      obtain rfl := Nat.le_zero.1 hk
      cases way
      rfl
  · rw [List.mem_singleton, isDistance_zero]

/-- What has not been visited is farther than the rounds that have been made. -/
theorem AtRound.lt_of_not_mem (h : m.AtRound start n visited frontier) {t : Term}
    (ht : t ∉ visited) {k : Nat} (way : Reaches m.Step start k t) : n < k :=
  Nat.lt_of_not_le fun hle => ht ((h.visited t).2 ⟨k, hle, way⟩)

/-- A round finds what is one step farther. -/
theorem AtRound.mem_fresh (h : m.AtRound start n visited frontier) {t : Term} :
    t ∈ m.fresh visited frontier ↔ IsDistance m.Step start t (n + 1) := by
  rw [Adjacency.mem_fresh]
  constructor
  · rintro ⟨⟨f, hf, hstep⟩, hnew⟩
    exact ⟨((h.frontier f).1 hf).reaches.tail hstep, fun k way => h.lt_of_not_mem hnew way⟩
  · intro ht
    obtain ⟨f, hf, hstep⟩ := ht.exists_step
    refine ⟨⟨f, (h.frontier f).2 hf, hstep⟩, fun hold => ?_⟩
    obtain ⟨k, hk, way⟩ := (h.visited t).1 hold
    exact Nat.not_lt_of_le hk (ht.least k way)

/-- After a round the search is at the next one. -/
theorem AtRound.next (h : m.AtRound start n visited frontier) :
    m.AtRound start (n + 1) (visited ++ m.fresh visited frontier) (m.fresh visited frontier) := by
  refine ⟨fun t => ?_, fun t => h.mem_fresh⟩
  rw [List.mem_append]
  constructor
  · rintro (hold | hnew)
    · obtain ⟨k, hk, way⟩ := (h.visited t).1 hold
      exact ⟨k, Nat.le_succ_of_le hk, way⟩
    · exact ⟨n + 1, Nat.le_refl _, (h.mem_fresh.1 hnew).reaches⟩
  · rintro ⟨k, hk, way⟩
    by_cases hold : t ∈ visited
    · exact .inl hold
    · have hfarther := fun k' way' => h.lt_of_not_mem (k := k') hold way'
      obtain rfl : k = n + 1 := Nat.le_antisymm hk (hfarther k way)
      exact .inr (h.mem_fresh.2 ⟨way, hfarther⟩)

/-- The rest of a search finds what is farther, the nearer before the farther. -/
theorem AtRound.spread (h : m.AtRound start n visited frontier) :
    (∀ t ∈ m.spread visited frontier, ∃ k > n, IsDistance m.Step start t k) ∧
      (m.spread visited frontier).Pairwise (NoFarther m.Step start) := by
  -- round by round: all that one finds is at one distance, and the later ones find only farther
  fun_induction Adjacency.spread m visited frontier generalizing n with
  | case1 => exact ⟨fun t ht => absurd ht List.not_mem_nil, List.Pairwise.nil⟩
  | case2 visited frontier first more hfresh ih =>
    have hnext := h.next
    rw [hfresh] at hnext
    obtain ⟨hfarther, hsorted⟩ := ih hnext
    have hfound := fun t => (hnext.frontier t).1
    refine ⟨fun t ht => ?_, List.pairwise_append.2 ⟨?_, hsorted, fun a ha b hb => ?_⟩⟩
    · rcases List.mem_append.1 ht with ht | ht
      · exact ⟨n + 1, Nat.lt_succ_self n, hfound t ht⟩
      · obtain ⟨k, hk, hdistance⟩ := hfarther t ht
        exact ⟨k, Nat.lt_of_succ_lt hk, hdistance⟩
    · exact List.pairwise_of_forall_mem_list fun a ha b hb =>
        ⟨_, _, hfound a ha, hfound b hb, Nat.le_refl _⟩
    · obtain ⟨k, hk, hdistance⟩ := hfarther b hb
      exact ⟨_, _, hfound a ha, hdistance, Nat.le_of_lt hk⟩

/-- A closure lists nearer terms before those that are farther away. -/
theorem pairwise_closure (m : Adjacency) (t : Term) :
    (m.closure t).Pairwise (NoFarther m.Step t) :=
  (m.atRound_zero t).spread.2

end Adjacency

/-! ## Hierarchies built edge by edge -/

theorem Kinship.converse_converse (kinship : Kinship) : kinship.converse.converse = kinship := by
  cases kinship <;> rfl

namespace ClassHierarchy

/-- The second class is among the relatives of the first. -/
def Related (h : ClassHierarchy) (kinship : Kinship) (c d : Term) : Prop :=
  d ∈ h.relatives kinship c

theorem Coherent.mem_relatives_iff {h : ClassHierarchy} (hcoherent : h.Coherent)
    (kinship : Kinship) {c d : Term} :
    d ∈ h.relatives kinship c ↔ c ∈ h.relatives kinship.converse d := by
  refine ⟨hcoherent.converse kinship c d, fun hc => ?_⟩
  have hback := hcoherent.converse kinship.converse d c hc
  rwa [kinship.converse_converse] at hback

theorem mem_parents_addEdges {edges : List (Term × Term)} {c d : Term} :
    d ∈ (empty.addEdges edges).relatives .parent c ↔ d ≠ c ∧ (c, d) ∈ edges := by
  have hnone : ¬empty.above.Step c d := by simp [Adjacency.Step, empty, Adjacency.neighbours]
  have hstep : (empty.addEdges edges).above.Step c d ↔ d ≠ c ∧ (c, d) ∈ edges := by
    rw [above_step_addEdges, or_iff_right hnone, and_comm]
  exact hstep

/-- In a hierarchy that is built by recording edges, the parents of a class are the other
classes that it has edges to, and they have it as a child.  Its ancestors are the other
classes that one or more steps to a parent lead to; they have it as a descendant, and it is
their subclass.  No class is related to itself, and none is listed twice; ancestors and
descendants are listed by the number of steps to them, the nearest first. -/
theorem closure_exact (edges : List (Term × Term)) :
    let h := empty.addEdges edges
    (∀ c d, (d ∈ h.relatives .parent c ↔ d ≠ c ∧ (c, d) ∈ edges) ∧
      (d ∈ h.relatives .parent c ↔ c ∈ h.relatives .child d)) ∧
    (∀ c a, (a ∈ h.relatives .ancestor c ↔
        a ≠ c ∧ Relation.TransGen (h.Related .parent) c a) ∧
      (a ∈ h.relatives .ancestor c ↔ c ∈ h.relatives .descendant a) ∧
      (a ∈ h.relatives .ancestor c ↔ h.isSubclassOf c a = true)) ∧
    (∀ kinship c, (h.relatives kinship c).Nodup ∧ c ∉ h.relatives kinship c) ∧
    ∀ kinship ∈ [Kinship.parent, Kinship.child], ∀ c,
      (h.relatives kinship.transitive c).Pairwise (NoFarther (h.Related kinship) c) := by
  intro h
  have hcoherent : h.Coherent := (linked_empty.addEdges edges).coherent
  refine ⟨fun c d => ⟨mem_parents_addEdges, hcoherent.mem_relatives_iff .parent⟩,
    fun c a => ⟨?_, hcoherent.mem_relatives_iff .ancestor, ?_⟩,
    fun kinship c => ⟨hcoherent.distinct kinship c, hcoherent.irrefl kinship c⟩, ?_⟩
  · refine Adjacency.mem_closure.trans (and_congr_right fun hne => ?_)
    rw [Relation.reflTransGen_iff_eq_or_transGen, or_iff_right hne]
    exact Iff.rfl
  · rw [isSubclassOf, List.contains_iff_mem]
  · simp only [List.forall_mem_cons]
    exact ⟨h.above.pairwise_closure, h.below.pairwise_closure, by simp⟩

/-- Two ways lead up from the first class and meet, and from there back to the first. -/
example : (empty.addEdges [(.blank "a", .blank "b"), (.blank "a", .blank "c"),
    (.blank "b", .blank "d"), (.blank "c", .blank "d"), (.blank "d", .blank "a")]).relatives
      .ancestor (.blank "a") = [.blank "b", .blank "c", .blank "d"] := by decide +kernel

end ClassHierarchy

end ShaclTypes
