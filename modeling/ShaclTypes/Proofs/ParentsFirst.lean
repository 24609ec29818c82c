import Mathlib.Data.List.Sort
import Mathlib.Logic.Relation
import Mathlib.Order.WellFoundedSet
import ShaclTypes.Model.Order
set_option autoImplicit false

/-!
# The order of object types

The schedule counts, for every object type, the parents that have not been emitted.
All that it is at any moment follows from what has been emitted by then (`OnTrack`),
whatever the order in which children are taken off.  So each step emits the smallest
object type whose parents have all been emitted, and the steps end before all are
emitted only if the rest contains a cycle (`parentsFirst_canonical`).
-/

namespace ShaclTypes

/-! ## Orders -/

namespace TypeModel

variable {m : TypeModel}

/-- The object type with the first number has the one with the second as a parent. -/
def HasParent (m : TypeModel) (child parent : ObjectId) : Prop :=
  ∃ o, m.object? child = some o ∧ parent ∈ o.parents

/-- Every parent is an object type of the model. -/
def ParentsHeld (m : TypeModel) : Prop :=
  ∀ o ∈ m.objects, ∀ parent ∈ o.parents, parent.index < m.objects.length

instance (m : TypeModel) : Decidable m.ParentsHeld := by
  unfold ParentsHeld
  infer_instance

/-- After `done` comes an object type's turn once all its parents are among them. -/
structure IsReady (m : TypeModel) (done : List ObjectId) (id : ObjectId) : Prop where
  held : id.index < m.objects.length
  fresh : id ∉ done
  parents : ∀ parent, m.HasParent id parent → parent ∈ done

/-- Of all object types whose turn it is, this is the one with the smallest number. -/
structure IsNext (m : TypeModel) (done : List ObjectId) (id : ObjectId) : Prop where
  ready : m.IsReady done id
  least : ∀ other, m.IsReady done other → id.index ≤ other.index

/-- Every object type is the next one when it comes. -/
def IsGreedy (m : TypeModel) (order : List ObjectId) : Prop :=
  ∀ before id after, order = before ++ id :: after → m.IsNext before id

/-- All object types, each once and after its parents. -/
structure IsParentsFirst (m : TypeModel) (order : List ObjectId) : Prop where
  all : order.Perm m.objectIds
  parents : ∀ before id after, order = before ++ id :: after →
    ∀ parent, m.HasParent id parent → parent ∈ before

/-- The first list is the second, or comes before it in the lexicographic order. -/
def NoLater (order other : List ObjectId) : Prop :=
  order = other ∨ List.Lex (fun a b => a.index < b.index) order other

theorem NoLater.antisymm {order other : List ObjectId} (h : NoLater order other)
    (h' : NoLater other order) : order = other := by
  rcases h with rfl | hlt
  · rfl
  · rcases h' with rfl | hgt
    · rfl
    · exact absurd hgt (List.lex_asymm (fun hab hba => Nat.lt_asymm hab hba) hlt)

theorem mem_objectIds {id : ObjectId} : id ∈ m.objectIds ↔ id.index < m.objects.length := by
  simp only [objectIds, List.mem_map, List.mem_range]
  constructor
  · rintro ⟨i, hi, rfl⟩
    exact hi
  · exact fun h => ⟨id.index, h, rfl⟩

theorem nodup_objectIds (m : TypeModel) : m.objectIds.Nodup :=
  List.nodup_range.map fun _ _ h => ObjectId.mk.inj h

theorem mem_map_mk {l : List Nat} {id : ObjectId} : id ∈ l.map ObjectId.mk ↔ id.index ∈ l := by
  rw [List.mem_map]
  constructor
  · rintro ⟨i, hi, rfl⟩
    exact hi
  · exact fun h => ⟨_, h, rfl⟩

theorem mem_parentsAt {i j : Nat} : j ∈ m.parentsAt i ↔ m.HasParent ⟨i⟩ ⟨j⟩ := by
  unfold parentsAt HasParent object?
  cases m.objects[i]? with
  | none => simp
  | some o =>
    simp only [mem_addAll, List.not_mem_nil, false_or, List.mem_map, Option.some.injEq,
      exists_eq_left']
    constructor
    · rintro ⟨id, hid, rfl⟩
      exact hid
    · exact fun h => ⟨_, h, rfl⟩

theorem lt_of_hasParent {child parent : ObjectId} (h : m.HasParent child parent) :
    child.index < m.objects.length := by
  obtain ⟨o, ho, -⟩ := h
  exact (List.getElem?_eq_some_iff.1 ho).1

theorem parentsHeld_iff : m.ParentsHeld ↔
    ∀ child parent, m.HasParent child parent → parent.index < m.objects.length := by
  constructor
  · rintro h child parent ⟨o, ho, hparent⟩
    exact h o (List.mem_of_getElem? ho) parent hparent
  · intro h o ho parent hparent
    obtain ⟨i, hi⟩ := List.mem_iff_getElem?.1 ho
    exact h ⟨i⟩ parent ⟨o, hi, hparent⟩

theorem ParentsHeld.lt (h : m.ParentsHeld) {child parent : ObjectId}
    (hparent : m.HasParent child parent) : parent.index < m.objects.length :=
  parentsHeld_iff.1 h child parent hparent

/-- Only membership in what has been emitted matters. -/
theorem IsReady.congr {done done' : List ObjectId} (h : ∀ id, id ∈ done ↔ id ∈ done')
    {id : ObjectId} : m.IsReady done id ↔ m.IsReady done' id := by
  constructor
  · exact fun ⟨held, fresh, parents⟩ =>
      ⟨held, fun hmem => fresh ((h _).2 hmem), fun p hp => (h _).1 (parents p hp)⟩
  · exact fun ⟨held, fresh, parents⟩ =>
      ⟨held, fun hmem => fresh ((h _).1 hmem), fun p hp => (h _).2 (parents p hp)⟩

theorem isGreedy_nil : m.IsGreedy [] := by
  intro before id after h
  simp at h

/-- A greedy order is continued by the next object type. -/
theorem IsGreedy.concat {order : List ObjectId} {id : ObjectId} (h : m.IsGreedy order)
    (hid : m.IsNext order id) : m.IsGreedy (order ++ [id]) := by
  intro before id' after heq
  rcases List.eq_nil_or_concat after with rfl | ⟨after, last, rfl⟩
  · obtain ⟨rfl, hlast⟩ := List.append_inj' heq rfl
    obtain rfl := List.singleton_inj.1 hlast
    exact hid
  · have heq' : order ++ [id] = (before ++ id' :: after) ++ [last] := by simpa using heq
    exact h before id' after (List.append_inj' heq' rfl).1

/-- In a greedy order every object type comes after its parents. -/
theorem IsGreedy.isParentsFirst {order : List ObjectId} (h : m.IsGreedy order)
    (hall : order.Perm m.objectIds) : m.IsParentsFirst order :=
  ⟨hall, fun before id after heq => (h before id after heq).ready.parents⟩

/-- What comes first depends on the parents alone. -/
theorem IsParentsFirst.congr {m' : TypeModel} {order : List ObjectId}
    (hlength : m'.objects.length = m.objects.length)
    (hparents : ∀ child parent, m'.HasParent child parent ↔ m.HasParent child parent)
    (h : m.IsParentsFirst order) : m'.IsParentsFirst order := by
  refine ⟨?_, fun before id after heq parent hparent => ?_⟩
  · have hsame : m'.objectIds = m.objectIds := by rw [objectIds, objectIds, hlength]
    exact hsame ▸ h.all
  · exact h.parents before id after heq parent ((hparents _ _).1 hparent)

/-- What comes after its parents comes after all that is above it. -/
theorem mem_before_of_transGen {order : List ObjectId}
    (h : ∀ before id after, order = before ++ id :: after →
      ∀ parent, m.HasParent id parent → parent ∈ before)
    {child above : ObjectId} (habove : Relation.TransGen m.HasParent child above)
    {before after : List ObjectId} (heq : order = before ++ child :: after) : above ∈ before := by
  induction habove with
  | single hparent => exact h before child after heq _ hparent
  | @tail middle above _ hparent ih =>
    obtain ⟨first, second, rfl⟩ := List.append_of_mem ih
    have hmiddle := h first middle (second ++ child :: after) (by simpa using heq) _ hparent
    exact List.mem_append_left _ hmiddle

namespace IsParentsFirst

variable {order : List ObjectId} (h : m.IsParentsFirst order)
include h

theorem nodup : order.Nodup := h.all.nodup_iff.2 m.nodup_objectIds

theorem mem_iff {id : ObjectId} : id ∈ order ↔ id.index < m.objects.length :=
  h.all.mem_iff.trans mem_objectIds

/-- Where parents can come first, no object type is above itself. -/
theorem acyclic (id : ObjectId) : ¬Relation.TransGen m.HasParent id id := by
  intro hcycle
  obtain ⟨parent, hparent, -⟩ := Relation.TransGen.head'_iff.1 hcycle
  obtain ⟨before, after, heq⟩ := List.append_of_mem (h.mem_iff.2 (lt_of_hasParent hparent))
  have hbefore : id ∈ before := mem_before_of_transGen h.parents hcycle heq
  have hnodup := h.nodup
  rw [heq] at hnodup
  exact (List.nodup_append.1 hnodup).2.2 _ hbefore _ List.mem_cons_self rfl

end IsParentsFirst

/-- Of two continuations of one beginning, the greedy one is no later than the other. -/
theorem IsGreedy.noLater_of_append {before rest other : List ObjectId}
    (h : m.IsGreedy (before ++ rest)) (hother : m.IsParentsFirst (before ++ other))
    (hlength : rest.length = other.length) : NoLater rest other := by
  induction rest generalizing before other with
  | nil => exact .inl (List.length_eq_zero_iff.1 hlength.symm).symm
  | cons id rest ih =>
    cases other with
    | nil => cases hlength
    | cons id' other =>
      have hnext : m.IsNext before id := h before id rest rfl
      have hready : m.IsReady before id' := by
        refine ⟨hother.mem_iff.1 (by simp), ?_, hother.parents before id' other rfl⟩
        intro hmem
        exact (List.nodup_append.1 hother.nodup).2.2 _ hmem _ List.mem_cons_self rfl
      rcases Nat.lt_or_eq_of_le (hnext.least id' hready) with hlt | heq
      · exact .inr (.rel hlt)
      · obtain rfl : id = id' := congrArg ObjectId.mk heq
        have hgreedy : m.IsGreedy ((before ++ [id]) ++ rest) := by simpa using h
        have hfirst : m.IsParentsFirst ((before ++ [id]) ++ other) := by simpa using hother
        rcases ih hgreedy hfirst (Nat.succ.inj hlength) with rfl | hlex
        · exact .inl rfl
        · exact .inr (.cons hlex)

/-- A greedy order of all object types is the least of those with parents first. -/
theorem IsGreedy.noLater {order other : List ObjectId} (h : m.IsGreedy order)
    (hall : order.Perm m.objectIds) (hother : m.IsParentsFirst other) : NoLater order other := by
  have hgreedy : m.IsGreedy ([] ++ order) := h
  exact hgreedy.noLater_of_append hother (hall.trans hother.all.symm).length_eq

/-- As long as an object type is left that has no cycle above it, it is the turn of some
object type. -/
theorem exists_isReady_of_no_cycle_above (hheld : m.ParentsHeld) {done : List ObjectId}
    {id : ObjectId} (hid : id.index < m.objects.length) (hleft : id ∉ done)
    (hacyclic : ∀ above, Relation.ReflTransGen m.HasParent id above →
      ¬Relation.TransGen m.HasParent above above) : ∃ id, m.IsReady done id := by
  let left : Set ObjectId := {above | (above ∈ m.objectIds ∧ above ∉ done) ∧
    Relation.ReflTransGen m.HasParent id above}
  let above : ObjectId → ObjectId → Prop := fun a b =>
    Relation.ReflTransGen m.HasParent id b ∧ Relation.TransGen m.HasParent b a
  have hstrict : IsStrictOrder ObjectId above :=
    { irrefl := fun a ha => hacyclic a ha.1 ha.2
      trans := fun _ _ _ hab hbc => ⟨hbc.1, hbc.2.trans hab.2⟩ }
  have hfinite : left.Finite := (List.finite_toSet m.objectIds).subset fun _ h => h.1.1
  by_contra hnone
  -- an object type that is left has a parent that is left, and so there is no topmost one
  refine hfinite.wellFoundedOn.induction (r := above) (P := fun _ => False)
    (x := id) ⟨⟨mem_objectIds.2 hid, hleft⟩, .refl⟩ fun id' hid' hmin => ?_
  refine hnone ⟨id', mem_objectIds.1 hid'.1.1, hid'.1.2, fun parent hparent => ?_⟩
  by_contra hmissing
  exact hmin parent ⟨⟨mem_objectIds.2 (hheld.lt hparent), hmissing⟩, hid'.2.tail hparent⟩
    ⟨hid'.2, .single hparent⟩

end TypeModel

/-! ## Taking off children -/

namespace Schedule

variable {m : TypeModel} {s : Schedule}

/-- One child more has been taken off. -/
theorem foldl_release_concat (s : Schedule) (taken : List Nat) (child : Nat) :
    (taken ++ [child]).foldl release s = release (taken.foldl release s) child := by
  rw [List.foldl_append, List.foldl_cons, List.foldl_nil]

theorem foldl_release_emitted (s : Schedule) (taken : List Nat) :
    (taken.foldl release s).emitted = s.emitted := by
  induction taken using List.reverseRecOn with
  | nil => rfl
  | append_singleton taken child ih => rw [foldl_release_concat, release, ih]

/-- Each child that is taken off waits for one parent less, the others for as many as before. -/
theorem foldl_release_pending (s : Schedule) {taken : List Nat} (h : taken.Nodup) (i : Nat) :
    (taken.foldl release s).pending[i]? =
      s.pending[i]?.map fun count => if i ∈ taken then count - 1 else count := by
  induction taken using List.reverseRecOn with
  | nil => simp
  | append_singleton taken child ih =>
    obtain ⟨htaken, -, hfresh⟩ := List.nodup_append.1 h
    rw [foldl_release_concat, release, List.getElem?_modify, ih htaken]
    by_cases hi : child = i
    · subst hi
      have hnot : child ∉ taken := fun hmem => hfresh _ hmem _ List.mem_cons_self rfl
      simp [hnot]
    · simp [hi, Ne.symm hi]

/-- A child gets ready if it has waited for one parent. -/
theorem release_ready (s : Schedule) (child : Nat) :
    (release s child).ready =
      if s.pending[child]? = some 1 then insertAscending child s.ready else s.ready := by
  have hzero : ((s.pending.modify child (· - 1))[child]? == some 0) = true ↔
      s.pending[child]? = some 1 := by
    rw [List.getElem?_modify_eq, beq_iff_eq]
    cases s.pending[child]? with
    | none => simp
    | some count =>
      simp only [Option.map_eq_map, Option.map_some, Option.some.injEq]
      omega
  simp only [release, hzero]

/-- The children that have waited for one parent only get ready. -/
theorem mem_ready_foldl_release (s : Schedule) {taken : List Nat} (h : taken.Nodup) {i : Nat} :
    i ∈ (taken.foldl release s).ready ↔ i ∈ s.ready ∨ i ∈ taken ∧ s.pending[i]? = some 1 := by
  induction taken using List.reverseRecOn with
  | nil => simp
  | append_singleton taken child ih =>
    obtain ⟨htaken, -, hfresh⟩ := List.nodup_append.1 h
    have hnot : child ∉ taken := fun hmem => hfresh _ hmem _ List.mem_cons_self rfl
    have hpending : (taken.foldl release s).pending[child]? = s.pending[child]? := by
      simp [foldl_release_pending s htaken, hnot]
    rw [foldl_release_concat, release_ready, hpending]
    split
    · next hone =>
      rw [mem_insertAscending, ih htaken, List.mem_append, List.mem_singleton]
      constructor
      · rintro (rfl | hready | ⟨hmem, hone'⟩)
        · exact .inr ⟨.inr rfl, hone⟩
        · exact .inl hready
        · exact .inr ⟨.inl hmem, hone'⟩
      · rintro (hready | ⟨hmem | rfl, hone'⟩)
        · exact .inr (.inl hready)
        · exact .inr (.inr ⟨hmem, hone'⟩)
        · exact .inl rfl
    · next hother =>
      rw [ih htaken, List.mem_append, List.mem_singleton]
      refine or_congr_right ⟨fun ⟨hmem, hone⟩ => ⟨.inl hmem, hone⟩, ?_⟩
      rintro ⟨hmem | rfl, hone⟩
      · exact ⟨hmem, hone⟩
      · exact absurd hone hother

/-- The ready ones stay in ascending order, if no child is among them already. -/
theorem pairwise_ready_foldl_release (s : Schedule) {taken : List Nat} (h : taken.Nodup)
    (hready : s.ready.Pairwise (· < ·)) (hapart : ∀ i ∈ taken, i ∉ s.ready) :
    (taken.foldl release s).ready.Pairwise (· < ·) := by
  induction taken using List.reverseRecOn with
  | nil => exact hready
  | append_singleton taken child ih =>
    obtain ⟨htaken, -, hfresh⟩ := List.nodup_append.1 h
    have hsorted := ih htaken fun i hi => hapart i (List.mem_append_left _ hi)
    rw [foldl_release_concat, release_ready]
    split
    · refine pairwise_insertAscending hsorted fun hmem => ?_
      rcases (mem_ready_foldl_release s htaken).1 hmem with hold | ⟨hmem, -⟩
      · exact hapart child (by simp) hold
      · exact hfresh _ hmem _ List.mem_cons_self rfl
    · exact hsorted

/-! ## Schedules on track -/

/-- The first of the ready ones is emitted, and its children are still to be taken off. -/
def emit (s : Schedule) (i : Nat) (rest : List Nat) : Schedule :=
  { s with ready := rest, emitted := i :: s.emitted }

theorem step_of_ready {i : Nat} {rest : List Nat} (h : s.ready = i :: rest) :
    step m s = (m.childrenAt i).foldl release (s.emit i rest) := by
  unfold step
  rw [h]
  rfl

/-- The schedule is what it has to be, given what has been emitted. -/
structure OnTrack (m : TypeModel) (s : Schedule) : Prop where
  pending : s.pending = (List.range m.objects.length).map
    fun i => (remaining (m.parentsAt i) s.emitted : Int)
  sorted : s.ready.Pairwise (· < ·)
  mem_ready : ∀ i, i ∈ s.ready ↔ m.IsReady (s.emitted.map ObjectId.mk) ⟨i⟩
  greedy : m.IsGreedy (s.emitted.reverse.map ObjectId.mk)
  distinct : s.emitted.Nodup
  held : ∀ i ∈ s.emitted, i < m.objects.length

/-- It is an object type's turn when it waits for no parent. -/
theorem isReady_iff {emitted : List Nat} {i : Nat} :
    m.IsReady (emitted.map ObjectId.mk) ⟨i⟩ ↔
      i < m.objects.length ∧ i ∉ emitted ∧ remaining (m.parentsAt i) emitted = 0 := by
  have hparents : (∀ parent, m.HasParent ⟨i⟩ parent → parent ∈ emitted.map ObjectId.mk) ↔
      ∀ j ∈ m.parentsAt i, j ∈ emitted := by
    constructor
    · exact fun h j hj => TypeModel.mem_map_mk.1 (h ⟨j⟩ (TypeModel.mem_parentsAt.1 hj))
    · exact fun h parent hparent => TypeModel.mem_map_mk.2 (h _ (TypeModel.mem_parentsAt.2 hparent))
  rw [remaining_eq_zero, ← hparents]
  constructor
  · exact fun h => ⟨h.held, fun hmem => h.fresh (TypeModel.mem_map_mk.2 hmem), h.parents⟩
  · exact fun ⟨held, fresh, parents⟩ =>
      ⟨held, fun hmem => fresh (TypeModel.mem_map_mk.1 hmem), parents⟩

theorem onTrack_start (m : TypeModel) : OnTrack m (start m) := by
  refine ⟨?_, List.pairwise_lt_range.filter _, fun i => ?_, TypeModel.isGreedy_nil,
    List.nodup_nil, fun _ h => by cases h⟩
  · simp only [start, remaining_nil]
  · have hemitted : (start m).emitted = [] := rfl
    rw [hemitted, isReady_iff, remaining_nil]
    simp only [start, List.mem_filter, List.mem_range, List.not_mem_nil, not_false_eq_true,
      true_and]
    refine and_congr_right fun hi => ?_
    simp [hi]

namespace OnTrack

theorem pending_getElem? (h : OnTrack m s) {i : Nat} (hi : i < m.objects.length) :
    s.pending[i]? = some (remaining (m.parentsAt i) s.emitted : Int) := by
  rw [h.pending]
  simp [hi]

/-- The parents of what has been emitted have been emitted. -/
theorem parents_emitted (h : OnTrack m s) {i j : Nat} (hi : i ∈ s.emitted)
    (hj : j ∈ m.parentsAt i) : j ∈ s.emitted := by
  have hmem : (⟨i⟩ : ObjectId) ∈ s.emitted.reverse.map ObjectId.mk :=
    TypeModel.mem_map_mk.2 (List.mem_reverse.2 hi)
  obtain ⟨before, after, heq⟩ := List.append_of_mem hmem
  have hbefore := (h.greedy before _ after heq).ready.parents ⟨j⟩ (TypeModel.mem_parentsAt.1 hj)
  have hparent : (⟨j⟩ : ObjectId) ∈ s.emitted.reverse.map ObjectId.mk :=
    heq ▸ List.mem_append_left _ hbefore
  exact List.mem_reverse.1 (TypeModel.mem_map_mk.1 hparent)

/-- Two schedules on track are the same if they have emitted the same. -/
theorem ext {s' : Schedule} (h : OnTrack m s) (h' : OnTrack m s') (heq : s.emitted = s'.emitted) :
    s = s' := by
  have hpending : s.pending = s'.pending := by rw [h.pending, h'.pending, heq]
  have hready : s.ready = s'.ready := by
    refine h.sorted.eq_of_mem_iff h'.sorted fun i => ?_
    rw [h.mem_ready, h'.mem_ready, heq]
  cases s
  cases s'
  simp_all

section Emitting

variable (h : OnTrack m s) {i : Nat} {rest : List Nat} (hready : s.ready = i :: rest)
include h hready

/-- What is emitted is the next one in order. -/
theorem isNext : m.IsNext (s.emitted.reverse.map ObjectId.mk) ⟨i⟩ := by
  have hsame : ∀ id, id ∈ s.emitted.map ObjectId.mk ↔ id ∈ s.emitted.reverse.map ObjectId.mk :=
    fun id => by rw [TypeModel.mem_map_mk, TypeModel.mem_map_mk, List.mem_reverse]
  have hsorted := h.sorted
  rw [hready] at hsorted
  refine ⟨(TypeModel.IsReady.congr hsame).1 ((h.mem_ready i).1 ?_), fun other hother => ?_⟩
  · rw [hready]
    exact List.mem_cons_self
  · have hmem := (h.mem_ready other.index).2 ((TypeModel.IsReady.congr hsame).2 hother)
    rw [hready] at hmem
    rcases List.mem_cons.1 hmem with heq | hrest
    · exact Nat.le_of_eq heq.symm
    · exact Nat.le_of_lt ((List.pairwise_cons.1 hsorted).1 _ hrest)

/-- A child of what is emitted has not been ready or emitted itself. -/
theorem not_ready_of_mem_childrenAt {j : Nat} (hj : j ∈ m.childrenAt i) :
    j ∉ s.ready ∧ j ∉ i :: s.emitted := by
  have hi := isReady_iff.1 ((h.mem_ready i).1 (hready ▸ List.mem_cons_self))
  have hparent : i ∈ m.parentsAt j := (TypeModel.mem_childrenAt.1 hj).2
  have hnot : j ∉ s.ready := by
    intro hmem
    obtain ⟨-, -, hzero⟩ := isReady_iff.1 ((h.mem_ready j).1 hmem)
    exact hi.2.1 (remaining_eq_zero.1 hzero i hparent)
  refine ⟨hnot, fun hmem => ?_⟩
  rcases List.mem_cons.1 hmem with rfl | hemitted
  · exact hnot (hready ▸ List.mem_cons_self)
  · exact hi.2.1 (h.parents_emitted hemitted hparent)

/-- Emitting a parent takes one off the count of a child, and no other count changes. -/
theorem remaining_emit {j : Nat} (hj : j < m.objects.length) :
    remaining (m.parentsAt j) s.emitted =
      remaining (m.parentsAt j) (i :: s.emitted) + if j ∈ m.childrenAt i then 1 else 0 := by
  have hfresh := (isReady_iff.1 ((h.mem_ready i).1 (hready ▸ List.mem_cons_self))).2.1
  split
  · next hchild =>
    have hparent := (TypeModel.mem_childrenAt.1 hchild).2
    exact (remaining_cons_of_mem (m.parentsAt_nodup j) hparent hfresh).symm
  · next hother =>
    have hparent : i ∉ m.parentsAt j := fun hmem => hother (TypeModel.mem_childrenAt.2 ⟨hj, hmem⟩)
    rw [remaining_cons_of_not_mem hparent, Nat.add_zero]

/-- While children are taken off, no count falls below zero. -/
theorem pending_nonneg {taken : List Nat} (htaken : taken.Nodup)
    (hchildren : taken ⊆ m.childrenAt i) :
    ∀ count ∈ (taken.foldl release (s.emit i rest)).pending, 0 ≤ count := by
  intro count hcount
  obtain ⟨j, hj⟩ := List.mem_iff_getElem?.1 hcount
  have hpending : (s.emit i rest).pending = s.pending := rfl
  rw [foldl_release_pending _ htaken, hpending] at hj
  obtain ⟨before, hbefore, rfl⟩ := Option.map_eq_some_iff.1 hj
  have hlt : j < m.objects.length := by
    have := (List.getElem?_eq_some_iff.1 hbefore).1
    simpa [h.pending] using this
  rw [h.pending_getElem? hlt] at hbefore
  have hremaining := h.remaining_emit hready hlt
  obtain rfl := Option.some.inj hbefore
  split
  · next hmem =>
    rw [if_pos (hchildren hmem)] at hremaining
    omega
  · exact Int.natCast_nonneg _

section Children

variable {children : List Nat} (hchildren : children.Perm (m.childrenAt i))
include hchildren

/-- Once all children have been taken off, the counts are those without the parent. -/
theorem pending_emit : (children.foldl release (s.emit i rest)).pending =
    (List.range m.objects.length).map
      fun j => (remaining (m.parentsAt j) (i :: s.emitted) : Int) := by
  have hnodup : children.Nodup := hchildren.nodup_iff.2 (m.childrenAt_nodup i)
  have hbefore : (s.emit i rest).pending = s.pending := rfl
  refine List.ext_getElem? fun j => ?_
  rw [foldl_release_pending _ hnodup, hbefore]
  by_cases hj : j < m.objects.length
  · have hremaining := h.remaining_emit hready hj
    rw [h.pending_getElem? hj, List.getElem?_map, List.getElem?_range hj]
    simp only [Option.map_some, Option.some.injEq, hchildren.mem_iff]
    split at hremaining
    · next hchild =>
      rw [if_pos hchild]
      omega
    · next hother =>
      rw [if_neg hother, hremaining, Nat.add_zero]
  · rw [h.pending]
    simp [hj]

/-- Once all children have been taken off, those are ready whose turn it is. -/
theorem mem_ready_emit (j : Nat) : j ∈ (children.foldl release (s.emit i rest)).ready ↔
    m.IsReady ((i :: s.emitted).map ObjectId.mk) ⟨j⟩ := by
  have hnodup : children.Nodup := hchildren.nodup_iff.2 (m.childrenAt_nodup i)
  have hbefore : (s.emit i rest).pending = s.pending := rfl
  have hrest : j ∈ (s.emit i rest).ready ↔ j ∈ s.ready ∧ j ≠ i := by
    have hsorted := h.sorted
    rw [hready] at hsorted ⊢
    rw [show (s.emit i rest).ready = rest from rfl, List.mem_cons]
    constructor
    · exact fun hmem => ⟨.inr hmem, (Nat.ne_of_lt ((List.pairwise_cons.1 hsorted).1 j hmem)).symm⟩
    · exact fun ⟨hmem, hne⟩ => hmem.resolve_left hne
  rw [mem_ready_foldl_release _ hnodup, hbefore, hrest, h.mem_ready, hchildren.mem_iff,
    isReady_iff, isReady_iff, List.mem_cons, not_or]
  by_cases hj : j < m.objects.length
  · have hremaining := h.remaining_emit hready hj
    rw [h.pending_getElem? hj]
    by_cases hchild : j ∈ m.childrenAt i
    · have hnew := (h.not_ready_of_mem_childrenAt hready hchild).2
      rw [List.mem_cons, not_or] at hnew
      rw [if_pos hchild] at hremaining
      simp [hchild, hj, hnew, hremaining]
    · rw [if_neg hchild, Nat.add_zero] at hremaining
      simp only [hchild, hj, hremaining, false_and, or_false, true_and]
      exact ⟨fun ⟨⟨hfresh, hzero⟩, hne⟩ => ⟨⟨hne, hfresh⟩, hzero⟩,
        fun ⟨⟨hne, hfresh⟩, hzero⟩ => ⟨⟨hfresh, hzero⟩, hne⟩⟩
  · have hchild : j ∉ m.childrenAt i := fun hmem => hj (TypeModel.mem_childrenAt.1 hmem).1
    simp [hj, hchild]

/-- Once all children have been taken off, in any order, the schedule is on track again. -/
theorem emit : OnTrack m (children.foldl release (s.emit i rest)) := by
  have hnodup : children.Nodup := hchildren.nodup_iff.2 (m.childrenAt_nodup i)
  have hemitted : (children.foldl release (s.emit i rest)).emitted = i :: s.emitted :=
    foldl_release_emitted _ _
  have hi := isReady_iff.1 ((h.mem_ready i).1 (hready ▸ List.mem_cons_self))
  refine ⟨?_, ?_, ?_, ?_, ?_, ?_⟩
  · rw [hemitted]
    exact h.pending_emit hready hchildren
  · have hsorted := h.sorted
    rw [hready] at hsorted
    have hrest := (List.pairwise_cons.1 hsorted).2
    refine pairwise_ready_foldl_release _ hnodup hrest fun j hj hmem => ?_
    refine (h.not_ready_of_mem_childrenAt hready (hchildren.mem_iff.1 hj)).1 ?_
    exact hready ▸ List.mem_cons_of_mem i hmem
  · rw [hemitted]
    exact h.mem_ready_emit hready hchildren
  · rw [hemitted, List.reverse_cons, List.map_append, List.map_singleton]
    exact h.greedy.concat (h.isNext hready)
  · rw [hemitted]
    exact List.nodup_cons.2 ⟨hi.2.1, h.distinct⟩
  · rw [hemitted]
    intro j hj
    rcases List.mem_cons.1 hj with rfl | hj
    · exact hi.1
    · exact h.held j hj

end Children

end Emitting

end OnTrack

/-! ## Runs -/

/-- After every number of steps the schedule is on track. -/
theorem onTrack_after (m : TypeModel) (steps : Nat) : OnTrack m (after m steps) := by
  induction steps with
  | zero => exact onTrack_start m
  | succ steps ih =>
    rw [after]
    cases hready : (after m steps).ready with
    | nil =>
      rw [step, hready]
      exact ih
    | cons i rest =>
      rw [step_of_ready hready]
      exact ih.emit hready (.refl _)

/-- Each step emits one object type, unless none is ready. -/
theorem length_emitted_after (m : TypeModel) (steps : Nat) :
    (after m steps).emitted.length = steps ∨ (after m steps).ready = [] := by
  induction steps with
  | zero => exact .inl rfl
  | succ steps ih =>
    rw [after]
    cases hready : (after m steps).ready with
    | nil =>
      rw [step, hready]
      exact .inr hready
    | cons i rest =>
      have hlength := ih.resolve_right (by simp [hready])
      rw [step_of_ready hready, foldl_release_emitted]
      exact .inl (congrArg Nat.succ hlength)

theorem OnTrack.perm_range (h : OnTrack m s) (hall : m.objects.length ≤ s.emitted.length) :
    s.emitted.Perm (List.range m.objects.length) := by
  have hsub : s.emitted ⊆ List.range m.objects.length :=
    fun i hi => List.mem_range.2 (h.held i hi)
  refine (List.subperm_of_subset h.distinct hsub).perm_of_length_le ?_
  rw [List.length_range]
  exact hall

/-- After as many steps as there are object types, none is ready. -/
theorem ready_after_all (m : TypeModel) : (after m m.objects.length).ready = [] := by
  have htrack := onTrack_after m m.objects.length
  rcases length_emitted_after m m.objects.length with hall | hnone
  · refine List.eq_nil_iff_forall_not_mem.2 fun i hi => ?_
    obtain ⟨hheld, hfresh, -⟩ := isReady_iff.1 ((htrack.mem_ready i).1 hi)
    exact hfresh ((htrack.perm_range (Nat.le_of_eq hall.symm)).mem_iff.2 (List.mem_range.2 hheld))
  · exact hnone

/-- At the end it is the turn of no object type. -/
theorem not_isReady_after_all (m : TypeModel) (id : ObjectId) :
    ¬m.IsReady ((after m m.objects.length).emitted.map ObjectId.mk) id := by
  intro hid
  have hready := ((onTrack_after m m.objects.length).mem_ready id.index).2 hid
  rw [ready_after_all] at hready
  cases hready

end Schedule

namespace TypeModel

variable {m : TypeModel} {order : List ObjectId}

/-- An order that is given is greedy and has all object types. -/
theorem isGreedy_of_parentsFirst (h : m.parentsFirst = .ok order) :
    m.IsGreedy order ∧ order.Perm m.objectIds := by
  have htrack := Schedule.onTrack_after m m.objects.length
  unfold parentsFirst at h
  dsimp only at h
  split at h
  · cases h
  · next hall =>
    obtain rfl := Except.ok.inj h
    refine ⟨htrack.greedy, List.Perm.map _ ?_⟩
    exact (List.reverse_perm _).trans (htrack.perm_range (Nat.le_of_not_lt hall))

/-- If there are no cycles, an order is given. -/
theorem exists_parentsFirst (hheld : m.ParentsHeld)
    (hacyclic : ∀ id, ¬Relation.TransGen m.HasParent id id) :
    ∃ order, m.parentsFirst = .ok order := by
  unfold parentsFirst
  dsimp only
  split
  · next hfew =>
    have hleft : ∃ i < m.objects.length, i ∉ (Schedule.after m m.objects.length).emitted := by
      by_contra hnone
      push Not at hnone
      have hsub := List.subperm_of_subset List.nodup_range
        (fun i hi => hnone i (List.mem_range.1 hi))
      have hle := hsub.length_le
      rw [List.length_range] at hle
      omega
    obtain ⟨i, hi, hmissing⟩ := hleft
    have hnew : (⟨i⟩ : ObjectId) ∉
        (Schedule.after m m.objects.length).emitted.map ObjectId.mk :=
      fun hmem => hmissing (mem_map_mk.1 hmem)
    obtain ⟨id, hid⟩ :=
      exists_isReady_of_no_cycle_above hheld hi hnew fun above _ => hacyclic above
    exact absurd hid (Schedule.not_isReady_after_all m id)
  · exact ⟨_, rfl⟩

/-- The order depends on nothing but the number of the object types and their parents. -/
theorem parentsFirst_congr {m' : TypeModel} (hheld : m.ParentsHeld)
    (hlength : m'.objects.length = m.objects.length)
    (hparents : ∀ child parent, m'.HasParent child parent ↔ m.HasParent child parent)
    (h : m.parentsFirst = .ok order) : m'.parentsFirst = .ok order := by
  obtain ⟨hgreedy, hall⟩ := isGreedy_of_parentsFirst h
  have hfirst := hgreedy.isParentsFirst hall
  have hfirst' := hfirst.congr hlength hparents
  have hheld' : m'.ParentsHeld := by
    refine parentsHeld_iff.2 fun child parent hparent => ?_
    rw [hlength]
    exact hheld.lt ((hparents _ _).1 hparent)
  obtain ⟨order', horder'⟩ := exists_parentsFirst hheld' hfirst'.acyclic
  obtain ⟨hgreedy', hall'⟩ := isGreedy_of_parentsFirst horder'
  have hother := (hgreedy'.isParentsFirst hall').congr hlength.symm fun c p => (hparents c p).symm
  have hle := hgreedy.noLater hall hother
  have hge := hgreedy'.noLater hall' hfirst'
  rw [horder', hle.antisymm hge]

/-- Object types whose parents are all in the model have an order exactly if none of them
is above itself.  The order has each of them once and after its parents; each is the
smallest of those whose turn it is, so that the order is the least of all that put
parents first, and it depends on the parents alone.  No count ever falls below zero, not
even between two steps, and the children may be taken off in any order. -/
theorem parentsFirst_canonical (hheld : m.ParentsHeld) :
    ((∃ order, m.parentsFirst = .ok order) ↔ ∀ id, ¬Relation.TransGen m.HasParent id id) ∧
    (∀ order, m.parentsFirst = .ok order →
      m.IsParentsFirst order ∧ m.IsGreedy order ∧
      (∀ other, m.IsParentsFirst other → NoLater order other) ∧
      ∀ m' : TypeModel, m'.objects.length = m.objects.length →
        (∀ child parent, m'.HasParent child parent ↔ m.HasParent child parent) →
        m'.parentsFirst = .ok order) ∧
    (∀ steps, ∀ count ∈ (Schedule.after m steps).pending, 0 ≤ count) ∧
    ∀ steps i rest, (Schedule.after m steps).ready = i :: rest →
      ∀ children, children.Perm (m.childrenAt i) →
        children.foldl Schedule.release ((Schedule.after m steps).emit i rest) =
          Schedule.after m (steps + 1) ∧
        ∀ taken, taken <+: children → ∀ count ∈
          (taken.foldl Schedule.release ((Schedule.after m steps).emit i rest)).pending,
          0 ≤ count := by
  refine ⟨⟨?_, exists_parentsFirst hheld⟩, fun order horder => ?_, fun steps => ?_,
    fun steps i rest hready children hchildren => ⟨?_, fun taken htaken => ?_⟩⟩
  · rintro ⟨order, horder⟩
    obtain ⟨hgreedy, hall⟩ := isGreedy_of_parentsFirst horder
    exact (hgreedy.isParentsFirst hall).acyclic
  · obtain ⟨hgreedy, hall⟩ := isGreedy_of_parentsFirst horder
    exact ⟨hgreedy.isParentsFirst hall, hgreedy, fun other hother => hgreedy.noLater hall hother,
      fun m' hlength hparents => parentsFirst_congr hheld hlength hparents horder⟩
  · rw [(Schedule.onTrack_after m steps).pending]
    intro count hcount
    obtain ⟨i, -, rfl⟩ := List.mem_map.1 hcount
    exact Int.natCast_nonneg _
  · have htrack := Schedule.onTrack_after m steps
    refine (htrack.emit hready hchildren).ext (Schedule.onTrack_after m (steps + 1)) ?_
    rw [Schedule.after, Schedule.step_of_ready hready, Schedule.foldl_release_emitted,
      Schedule.foldl_release_emitted]
  · have hnodup : children.Nodup := hchildren.nodup_iff.2 (m.childrenAt_nodup i)
    exact (Schedule.onTrack_after m steps).pending_nonneg hready (hnodup.sublist htaken.sublist)
      fun j hj => hchildren.mem_iff.1 (htaken.subset hj)

/-- A puppy is a dog, said twice, a dog is an animal, and a plant is neither. -/
def beings : TypeModel :=
  { objects := [{ (default : ObjectType) with parents := [⟨1⟩, ⟨1⟩] },
      { (default : ObjectType) with parents := [⟨2⟩] }, default, default] }

theorem parentsFirst_canonical_beings : beings.ParentsHeld ∧
    beings.parentsFirst = .ok [⟨2⟩, ⟨1⟩, ⟨0⟩, ⟨3⟩] ∧
    beings.IsGreedy [⟨2⟩, ⟨1⟩, ⟨0⟩, ⟨3⟩] ∧ ∀ id, ¬Relation.TransGen beings.HasParent id id := by
  have hheld : beings.ParentsHeld := by decide
  have horder : beings.parentsFirst = .ok [⟨2⟩, ⟨1⟩, ⟨0⟩, ⟨3⟩] := rfl
  obtain ⟨hiff, hleast, -⟩ := parentsFirst_canonical hheld
  exact ⟨hheld, horder, (hleast _ horder).2.1, hiff.1 ⟨_, horder⟩⟩

end TypeModel

end ShaclTypes
