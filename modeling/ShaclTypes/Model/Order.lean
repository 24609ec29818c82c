import ShaclTypes.Model.Basic
set_option autoImplicit false

/-!
# Parents before children

The order in which object types can be declared so that every parent comes
before its children.  Each object type waits for its distinct parents; one that
waits for none is ready, and of the ready ones the one with the smallest number
goes next, which takes it off the count of each of its children.  If some never
get ready, they are reported by name instead.

The counts are integers, so that a count below zero would show.
-/

namespace ShaclTypes

namespace TypeModel

/-! ## The parent relation -/

/-- The distinct parents of the object type at a position. -/
def parentsAt (m : TypeModel) (i : Nat) : List Nat :=
  match m.objects[i]? with
  | some o => addAll [] (o.parents.map ObjectId.index)
  | none => []

/-- The positions of the object types that have a parent at a position. -/
def childrenAt (m : TypeModel) (i : Nat) : List Nat :=
  (List.range m.objects.length).filter fun j => i ∈ m.parentsAt j

theorem parentsAt_nodup (m : TypeModel) (i : Nat) : (m.parentsAt i).Nodup := by
  unfold parentsAt
  split
  · exact nodup_addAll List.nodup_nil _
  · exact List.nodup_nil

theorem mem_childrenAt {m : TypeModel} {i j : Nat} :
    j ∈ m.childrenAt i ↔ j < m.objects.length ∧ i ∈ m.parentsAt j := by
  simp [childrenAt]

theorem childrenAt_nodup (m : TypeModel) (i : Nat) : (m.childrenAt i).Nodup :=
  List.nodup_range.filter _

end TypeModel

/-! ## Scheduling -/

/-- How far the ordering has come: how many parents each object type still waits
for, which object types are ready, in ascending order, and which have been
emitted, last first. -/
structure Schedule where
  pending : List Int
  ready : List Nat
  emitted : List Nat
  deriving DecidableEq, Repr

namespace Schedule

/-- Insert into an ascending list. -/
def insertAscending (i : Nat) : List Nat → List Nat
  | [] => [i]
  | j :: rest => if i ≤ j then i :: j :: rest else j :: insertAscending i rest

theorem mem_insertAscending {i j : Nat} {l : List Nat} :
    j ∈ insertAscending i l ↔ j = i ∨ j ∈ l := by
  induction l with
  | nil => simp [insertAscending]
  | cons k l ih =>
    unfold insertAscending
    split
    · simp
    · rw [List.mem_cons, ih, List.mem_cons, or_left_comm]

theorem pairwise_insertAscending {i : Nat} {l : List Nat} (h : l.Pairwise (· < ·)) (hi : i ∉ l) :
    (insertAscending i l).Pairwise (· < ·) := by
  induction l with
  | nil => simp [insertAscending]
  | cons k l ih =>
    obtain ⟨hk, hl⟩ := List.pairwise_cons.1 h
    unfold insertAscending
    split
    · next hle =>
      have hlt : i < k := Nat.lt_of_le_of_ne hle fun heq => hi (heq ▸ List.mem_cons_self)
      refine List.pairwise_cons.2 ⟨fun j hj => ?_, h⟩
      rcases List.mem_cons.1 hj with rfl | hj
      · exact hlt
      · exact Nat.lt_trans hlt (hk j hj)
    · next hgt =>
      have hrest : i ∉ l := fun hmem => hi (List.mem_cons_of_mem k hmem)
      refine List.pairwise_cons.2 ⟨fun j hj => ?_, ih hl hrest⟩
      rcases mem_insertAscending.1 hj with rfl | hj
      · omega
      · exact hk j hj

/-- The schedule at the start. -/
def start (m : TypeModel) : Schedule :=
  let pending := (List.range m.objects.length).map fun i => ((m.parentsAt i).length : Int)
  { pending
    ready := (List.range m.objects.length).filter fun i => pending[i]? == some 0
    emitted := [] }

/-- One parent less to wait for; who waits for none becomes ready. -/
def release (s : Schedule) (child : Nat) : Schedule :=
  let pending := s.pending.modify child (· - 1)
  { s with
    pending
    ready := if pending[child]? == some 0 then insertAscending child s.ready else s.ready }

/-- Emit the first of the ready ones, if there is one. -/
def step (m : TypeModel) (s : Schedule) : Schedule :=
  match s.ready with
  | [] => s
  | i :: rest => (m.childrenAt i).foldl release { s with ready := rest, emitted := i :: s.emitted }

/-- The schedule after a number of steps. -/
def after (m : TypeModel) : Nat → Schedule
  | 0 => start m
  | n + 1 => step m (after m n)

end Schedule

/-- Why there is no order. -/
inductive OrderError where
  /-- these object types never get ready -/
  | cycle (names : List String)
  deriving DecidableEq, Repr

/-- The wording of the error. -/
def OrderError.message : OrderError → String
  | cycle names => "Parent cycle between object types: " ++ String.intercalate ", " names

/-- All object types, every parent before its children.  There are as many steps
as object types, because each step emits one. -/
def TypeModel.parentsFirst (m : TypeModel) : Except OrderError (List ObjectId) :=
  let final := Schedule.after m m.objects.length
  if final.emitted.length < m.objects.length then
    .error (.cycle (((m.objects.zip final.pending).filter fun p => 0 < p.2).map
      fun p => p.1.name.sanitized))
  else .ok (final.emitted.reverse.map ObjectId.mk)

end ShaclTypes
