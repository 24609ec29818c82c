import ShaclTypes.Proofs.ParentsFirst
set_option autoImplicit false

/-!
# What a report of a cycle names

Where object types cannot be ordered, those are reported that never get ready.  An object
type gets ready unless a cycle is above it (`waiting_iff_belowCycle`).  So the report has the
object types of every cycle, and with them all that has such a one above it; it has those of
the cycles alone only if nothing else has one of them as a parent (`cycle_report`).
-/

namespace ShaclTypes

namespace TypeModel

variable {m : TypeModel}

/-! ## Cycles -/

/-- The object type is above itself. -/
def OnCycle (m : TypeModel) (id : ObjectId) : Prop := Relation.TransGen m.HasParent id id

/-- The object type is on a cycle, or one that is on a cycle is above it. -/
def BelowCycle (m : TypeModel) (id : ObjectId) : Prop :=
  ∃ above, Relation.ReflTransGen m.HasParent id above ∧ m.OnCycle above

theorem OnCycle.belowCycle {id : ObjectId} (h : m.OnCycle id) : m.BelowCycle id := ⟨id, .refl, h⟩

theorem BelowCycle.of_hasParent {child parent : ObjectId} (hparent : m.HasParent child parent)
    (h : m.BelowCycle parent) : m.BelowCycle child := by
  obtain ⟨above, habove, hcycle⟩ := h
  exact ⟨above, habove.head hparent, hcycle⟩

/-- What is below a cycle has a parent that is below it, too. -/
theorem BelowCycle.exists_parent {id : ObjectId} (h : m.BelowCycle id) :
    ∃ parent, m.HasParent id parent ∧ m.BelowCycle parent := by
  obtain ⟨above, habove, hcycle⟩ := h
  rcases habove.cases_head with rfl | ⟨parent, hparent, habove⟩
  · obtain ⟨parent, hparent, hback⟩ := Relation.TransGen.head'_iff.1 hcycle
    exact ⟨parent, hparent, id, hback, hcycle⟩
  · exact ⟨parent, hparent, above, habove, hcycle⟩

theorem BelowCycle.lt {id : ObjectId} (h : m.BelowCycle id) : id.index < m.objects.length := by
  obtain ⟨parent, hparent, -⟩ := h.exists_parent
  exact lt_of_hasParent hparent

/-- Nothing else is below a cycle exactly if what has a parent on a cycle is on one itself. -/
theorem belowCycle_imp_onCycle_iff : (∀ id, m.BelowCycle id → m.OnCycle id) ↔
    ∀ child parent, m.HasParent child parent → m.OnCycle parent → m.OnCycle child := by
  constructor
  · exact fun h child parent hparent hcycle => h child (hcycle.belowCycle.of_hasParent hparent)
  · rintro h id ⟨above, habove, hcycle⟩
    induction habove using Relation.ReflTransGen.head_induction_on with
    | refl => exact hcycle
    | head hparent _ ih => exact h _ _ hparent ih

/-- A greedy order has nothing that is below a cycle: an object type of the cycle would come
before itself. -/
theorem IsGreedy.not_belowCycle {order : List ObjectId} (h : m.IsGreedy order) {id : ObjectId}
    (hid : id ∈ order) : ¬m.BelowCycle id := by
  rintro ⟨above, habove, hcycle⟩
  have hready := fun before id after heq => (h before id after heq).ready
  have hparents := fun before id after heq => (hready before id after heq).parents
  have hmem : above ∈ order := by
    obtain ⟨before, after, heq⟩ := List.append_of_mem hid
    rcases Relation.reflTransGen_iff_eq_or_transGen.1 habove with rfl | habove
    · exact hid
    · rw [heq]
      exact List.mem_append_left _ (mem_before_of_transGen hparents habove heq)
  obtain ⟨before, after, heq⟩ := List.append_of_mem hmem
  exact (hready before above after heq).fresh (mem_before_of_transGen hparents hcycle heq)

/-! ## Lists of names -/

/-- The names are those of the object types with the property, in the order of their numbers. -/
def Lists (m : TypeModel) (names : List String) (p : ObjectId → Prop) : Prop :=
  ∃ ids : List ObjectId, ids.Pairwise (fun a b => a.index < b.index) ∧ (∀ id, id ∈ ids ↔ p id) ∧
    names.map some = ids.map fun id => (m.object? id).map fun o => o.name.sanitized

variable {names : List String} {p q : ObjectId → Prop}

theorem Lists.congr (h : m.Lists names p) (hpq : ∀ id, p id ↔ q id) : m.Lists names q := by
  obtain ⟨ids, hsorted, hmem, hnames⟩ := h
  exact ⟨ids, hsorted, fun id => (hmem id).trans (hpq id), hnames⟩

/-- If one list is that of two properties, neither of them holds more often than the other. -/
theorem Lists.imp_of_imp (hp : m.Lists names p) (hq : m.Lists names q) (h : ∀ id, p id → q id)
    (id : ObjectId) (hid : q id) : p id := by
  obtain ⟨few, hfew, hmemfew, hnames⟩ := hp
  obtain ⟨many, -, hmemmany, hnames'⟩ := hq
  have hlength : few.length = many.length := by
    simpa using congrArg List.length (hnames.symm.trans hnames')
  have hnodup : few.Nodup := hfew.imp fun hlt heq => Nat.ne_of_lt hlt (congrArg _ heq)
  have hsub : few ⊆ many := fun id hid => (hmemmany id).2 (h id ((hmemfew id).1 hid))
  have hperm := (List.subperm_of_subset hnodup hsub).perm_of_length_le (Nat.le_of_eq hlength.symm)
  exact (hmemfew id).1 (hperm.mem_iff.2 ((hmemmany id).2 hid))

/-- The names at the positions with a positive count are those of the positions, in order. -/
theorem lists_of_counts (m : TypeModel) (count : Nat → Int) :
    m.Lists (((m.objects.zip ((List.range m.objects.length).map count)).filter
      fun p => 0 < p.2).map fun p => p.1.name.sanitized)
      fun id => id.index < m.objects.length ∧ 0 < count id.index := by
  refine ⟨m.objectIds.filter fun id => 0 < count id.index, ?_, fun id => ?_, ?_⟩
  · refine List.Pairwise.filter _ (List.pairwise_map.2 ?_)
    exact List.pairwise_lt_range
  · rw [List.mem_filter, mem_objectIds, decide_eq_true_iff]
  · have hzip : m.objects.zip ((List.range m.objects.length).map count) =
        m.objects.zipIdx.map fun p => (p.1, count p.2) := by
      rw [List.zip_map_right, List.range_eq_range', ← List.zipIdx_eq_zip_range']
      rfl
    have hids : m.objectIds = m.objects.zipIdx.map fun p => ⟨p.2⟩ := by
      rw [objectIds, List.range_eq_range', ← List.zipIdx_map_snd 0 m.objects, List.map_map]
      rfl
    rw [hzip, hids, List.filter_map, List.filter_map, List.map_map, List.map_map, List.map_map]
    refine List.map_congr_left fun p hp => ?_
    have hobject : m.objects[p.2]? = some p.1 :=
      List.mem_zipIdx_iff_getElem?.1 (List.mem_filter.1 hp).1
    simp only [Function.comp_apply, object?, hobject, Option.map_some]

/-! ## What never gets ready -/

/-- Once none is ready, the object types that wait for a parent are those below a cycle. -/
theorem waiting_iff_belowCycle (hheld : m.ParentsHeld) (i : Nat) :
    0 < remaining (m.parentsAt i) (Schedule.after m m.objects.length).emitted ↔
      m.BelowCycle ⟨i⟩ := by
  rw [Nat.pos_iff_ne_zero, Ne, remaining_eq_zero]
  constructor
  · intro hwaiting
    push Not at hwaiting
    obtain ⟨j, hj, hmissing⟩ := hwaiting
    have hparent := mem_parentsAt.1 hj
    refine BelowCycle.of_hasParent hparent ?_
    -- a parent that never comes, and without a cycle above it, would let another come
    by_contra hfree
    obtain ⟨id, hid⟩ := exists_isReady_of_no_cycle_above hheld (hheld.lt hparent)
      (fun hmem => hmissing (mem_map_mk.1 hmem))
      fun above habove hcycle => hfree ⟨above, habove, hcycle⟩
    exact Schedule.not_isReady_after_all m id hid
  · intro hbelow hall
    obtain ⟨parent, hparent, hbelow⟩ := hbelow.exists_parent
    have hemitted := hall parent.index (mem_parentsAt.2 hparent)
    have hmem : parent ∈ (Schedule.after m m.objects.length).emitted.reverse.map ObjectId.mk :=
      mem_map_mk.2 (List.mem_reverse.2 hemitted)
    exact (Schedule.onTrack_after m m.objects.length).greedy.not_belowCycle hmem hbelow

/-- A report has the object types that are below a cycle. -/
theorem lists_belowCycle (hheld : m.ParentsHeld) (h : m.parentsFirst = .error (.cycle names)) :
    m.Lists names m.BelowCycle := by
  unfold parentsFirst at h
  dsimp only at h
  split at h
  · obtain rfl := OrderError.cycle.inj (Except.error.inj h)
    rw [(Schedule.onTrack_after m m.objects.length).pending]
    refine (m.lists_of_counts _).congr fun id => ?_
    rw [Int.natCast_pos, waiting_iff_belowCycle hheld, and_iff_right_of_imp BelowCycle.lt]
  · cases h

/-- A cycle is reported only where there is one, and the report names, in the order of their
numbers, the object types that are on a cycle or below one.  It names those on a cycle alone
exactly if no other object type has one of them as a parent. -/
theorem cycle_report (hheld : m.ParentsHeld) (h : m.parentsFirst = .error (.cycle names)) :
    m.Lists names m.BelowCycle ∧ (∃ id, m.OnCycle id) ∧
    (m.Lists names m.OnCycle ↔
      ∀ child parent, m.HasParent child parent → m.OnCycle parent → m.OnCycle child) := by
  have hbelow := lists_belowCycle hheld h
  refine ⟨hbelow, ?_, ?_⟩
  · by_contra hnone
    obtain ⟨order, horder⟩ := exists_parentsFirst hheld fun id hcycle => hnone ⟨id, hcycle⟩
    rw [h] at horder
    cases horder
  · rw [← belowCycle_imp_onCycle_iff]
    constructor
    · exact fun hon => hon.imp_of_imp hbelow fun _ => OnCycle.belowCycle
    · exact fun himp => hbelow.congr fun id => ⟨himp id, OnCycle.belowCycle⟩

/-- The hen comes from the egg, the egg from the hen, and the chick from the egg. -/
def henAndEgg : TypeModel :=
  { objects := [
      { (default : ObjectType) with
        name := { (default : Name) with sanitized := "Hen" }, parents := [⟨1⟩] },
      { (default : ObjectType) with
        name := { (default : Name) with sanitized := "Egg" }, parents := [⟨0⟩] },
      { (default : ObjectType) with
        name := { (default : Name) with sanitized := "Chick" }, parents := [⟨1⟩] }] }

theorem cycle_report_henAndEgg : henAndEgg.ParentsHeld ∧
    henAndEgg.parentsFirst = .error (.cycle ["Hen", "Egg", "Chick"]) ∧
    henAndEgg.Lists ["Hen", "Egg", "Chick"] henAndEgg.BelowCycle := by
  have hheld : henAndEgg.ParentsHeld := by decide
  have hreport : henAndEgg.parentsFirst = .error (.cycle ["Hen", "Egg", "Chick"]) := rfl
  exact ⟨hheld, hreport, (cycle_report hheld hreport).1⟩

/-- The chick is reported with the hen and the egg, although nothing comes from it. -/
theorem chick_reported : henAndEgg.ParentsHeld ∧
    henAndEgg.parentsFirst = .error (.cycle ["Hen", "Egg", "Chick"]) ∧
    ¬henAndEgg.OnCycle ⟨2⟩ ∧
    ¬henAndEgg.Lists ["Hen", "Egg", "Chick"] henAndEgg.OnCycle := by
  have hheld : henAndEgg.ParentsHeld := by decide
  have hreport : henAndEgg.parentsFirst = .error (.cycle ["Hen", "Egg", "Chick"]) := rfl
  have hchick : ¬henAndEgg.OnCycle ⟨2⟩ := by
    intro hcycle
    obtain ⟨child, -, hchild⟩ := Relation.TransGen.tail'_iff.1 hcycle
    have hnone : ∀ i < henAndEgg.objects.length, 2 ∉ henAndEgg.parentsAt i := by decide
    exact hnone child.index (lt_of_hasParent hchild) (mem_parentsAt.2 hchild)
  have hbelow : henAndEgg.BelowCycle ⟨2⟩ := by
    have hhen : henAndEgg.HasParent ⟨0⟩ ⟨1⟩ := mem_parentsAt.1 (by decide)
    have hegg : henAndEgg.HasParent ⟨1⟩ ⟨0⟩ := mem_parentsAt.1 (by decide)
    have hcycle : henAndEgg.OnCycle ⟨1⟩ := (Relation.TransGen.single hegg).tail hhen
    exact hcycle.belowCycle.of_hasParent (mem_parentsAt.1 (by decide))
  refine ⟨hheld, hreport, hchick, fun hon => hchick ?_⟩
  exact hon.imp_of_imp (lists_belowCycle hheld hreport) (fun _ => OnCycle.belowCycle) _ hbelow

end TypeModel

end ShaclTypes
