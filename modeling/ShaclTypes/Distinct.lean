set_option autoImplicit false

/-!
# Lists without repeats, in order of first appearance

Shapes, classes and object types are collected in the order in which they are
first met, and each once.  `addNew` adds one element, `addAll` a list of them,
and `remaining` counts what of a finite list has not been met yet; the last is
what makes every walk over a finite graph stop (`remaining_lt`).
-/

namespace ShaclTypes

variable {α : Type} [DecidableEq α]

/-! ## Adding at the end -/

/-- Put `a` at the end of `xs`, unless it is there already. -/
def addNew (xs : List α) (a : α) : List α := if a ∈ xs then xs else xs ++ [a]

/-- Put the elements of `more` at the end of `xs` one by one, each at most once. -/
def addAll (xs more : List α) : List α := more.foldl addNew xs

@[simp] theorem mem_addNew {xs : List α} {a b : α} : b ∈ addNew xs a ↔ b ∈ xs ∨ b = a := by
  unfold addNew
  split
  · constructor
    · exact Or.inl
    · rintro (h | rfl) <;> assumption
  · simp

theorem nodup_addNew {xs : List α} (h : xs.Nodup) (a : α) : (addNew xs a).Nodup := by
  unfold addNew
  split
  · exact h
  · next ha =>
    rw [List.nodup_append]
    refine ⟨h, by simp, ?_⟩
    intro x hx y hy
    rw [List.mem_singleton] at hy
    rintro rfl
    exact ha (hy ▸ hx)

theorem prefix_addNew (xs : List α) (a : α) : xs <+: addNew xs a := by
  unfold addNew
  split
  · exact List.prefix_refl xs
  · exact List.prefix_append xs [a]

@[simp] theorem addAll_nil (xs : List α) : addAll xs [] = xs := rfl

@[simp] theorem addAll_cons (xs : List α) (a : α) (more : List α) :
    addAll xs (a :: more) = addAll (addNew xs a) more := rfl

theorem addAll_append (xs as bs : List α) : addAll xs (as ++ bs) = addAll (addAll xs as) bs := by
  simp [addAll]

theorem mem_addAll {xs more : List α} {b : α} : b ∈ addAll xs more ↔ b ∈ xs ∨ b ∈ more := by
  induction more generalizing xs with
  | nil => simp
  | cons a more ih => simp [ih, or_assoc]

theorem nodup_addAll {xs : List α} (h : xs.Nodup) (more : List α) : (addAll xs more).Nodup := by
  induction more generalizing xs with
  | nil => exact h
  | cons a more ih => exact ih (nodup_addNew h a)

theorem prefix_addAll (xs more : List α) : xs <+: addAll xs more := by
  induction more generalizing xs with
  | nil => exact List.prefix_refl xs
  | cons a more ih => exact (prefix_addNew xs a).trans (ih _)

/-! ## What a walk has not visited -/

/-- How many entries of `pool` are not in `visited`. -/
def remaining (pool visited : List α) : Nat := pool.countP (· ∉ visited)

theorem remaining_le_length (pool visited : List α) :
    remaining pool visited ≤ pool.length := List.countP_le_length

theorem remaining_le {pool old new : List α} (h : old ⊆ new) :
    remaining pool new ≤ remaining pool old := by
  refine List.countP_mono_left ?_
  intro x _ hx
  simp only [decide_eq_true_eq] at hx ⊢
  exact fun hold => hx (h hold)

/-- Visiting one more element of the pool leaves strictly less to visit. -/
theorem remaining_lt {pool old new : List α} {a : α} (h : old ⊆ new)
    (mem : a ∈ pool) (fresh : a ∉ old) (visited : a ∈ new) :
    remaining pool new < remaining pool old := by
  induction pool with
  | nil => cases mem
  | cons x rest ih =>
    have tail : remaining rest new ≤ remaining rest old := remaining_le h
    simp only [remaining, List.countP_cons, decide_eq_true_eq] at ih tail ⊢
    by_cases hx : x = a
    · subst hx
      simp only [visited, fresh, not_true_eq_false, not_false_eq_true, if_true, if_false]
      omega
    · have hlt := ih ((List.mem_cons.1 mem).resolve_left (fun e => hx e.symm))
      by_cases hold : x ∈ old
      · simp only [hold, h hold, not_true_eq_false, if_false]
        omega
      · by_cases hnew : x ∈ new
        · simp only [hold, hnew, not_true_eq_false, not_false_eq_true, if_true, if_false]
          omega
        · simp only [hold, hnew, not_false_eq_true, if_true]
          omega

theorem remaining_nil (pool : List α) : remaining pool [] = pool.length := by
  simp [remaining]

theorem remaining_eq_zero {pool visited : List α} :
    remaining pool visited = 0 ↔ ∀ a ∈ pool, a ∈ visited := by
  simp [remaining, List.countP_eq_zero]

/-- What is not in the pool makes no difference. -/
theorem remaining_cons_of_not_mem {pool visited : List α} {a : α} (h : a ∉ pool) :
    remaining pool (a :: visited) = remaining pool visited := by
  refine List.countP_congr fun b hb => ?_
  have hne : b ≠ a := fun heq => h (heq ▸ hb)
  simp [hne]

/-- Visiting an element that the pool has once leaves one less. -/
theorem remaining_cons_of_mem {pool visited : List α} {a : α} (hnodup : pool.Nodup)
    (hmem : a ∈ pool) (hfresh : a ∉ visited) :
    remaining pool (a :: visited) + 1 = remaining pool visited := by
  obtain ⟨front, back, rfl⟩ := List.append_of_mem hmem
  obtain ⟨-, hback, hapart⟩ := List.nodup_append.1 hnodup
  have hfront : remaining front (a :: visited) = remaining front visited :=
    remaining_cons_of_not_mem fun h => hapart _ h _ List.mem_cons_self rfl
  have hback' : remaining back (a :: visited) = remaining back visited :=
    remaining_cons_of_not_mem (List.nodup_cons.1 hback).1
  unfold remaining at hfront hback' ⊢
  rw [List.countP_append, List.countP_append, List.countP_cons_of_neg (by simp),
    List.countP_cons_of_pos (by simpa using hfresh), hfront, hback', Nat.add_assoc]

end ShaclTypes
