import ShaclTypes.Resolution.Cardinality
import ShaclTypes.Resolution.Collapse
import ShaclTypes.Resolution.Scalar
set_option autoImplicit false

/-!
# The leaves of types

A value type is a tree of composites, sets and options over literals, identifiers and
references.  A composite that is built has the leaves of its members, a cardinality
hides none, a scalar type is one, and where members collapse to one simpler type, this
is a leaf again.
-/

namespace ShaclTypes

namespace ValueType

mutual

/-- The literals, identifiers and references in a type, from left to right. -/
def leaves : ValueType → List ValueType
  | composite _ members => leavesList members
  | set item _ | option item => item.leaves
  | literal t => [literal t]
  | identifier t => [identifier t]
  | object id inline => [object id inline]
  | objectComposite kind id => [objectComposite kind id]

/-- The leaves of a list of types. -/
def leavesList : List ValueType → List ValueType
  | [] => []
  | t :: rest => t.leaves ++ leavesList rest

end

theorem mem_leavesList {leaf : ValueType} {members : List ValueType} :
    leaf ∈ leavesList members ↔ ∃ member ∈ members, leaf ∈ member.leaves := by
  induction members with
  | nil => simp [leavesList]
  | cons t rest ih => simp [leavesList, ih]

theorem leavesList_eq_flatMap (members : List ValueType) :
    leavesList members = members.flatMap leaves := by
  induction members with
  | nil => rfl
  | cons t rest ih => rw [leavesList, ih, List.flatMap_cons]

/-- A cardinality hides no leaf. -/
theorem leaves_withoutCardinality (t : ValueType) : t.withoutCardinality.leaves = t.leaves := by
  fun_induction withoutCardinality t with
  | case1 item _ ih | case2 item ih => rw [ih, leaves]
  | case3 => rfl

theorem leaves_wrap (c : Cardinality) (item : ValueType) : (c.wrap item).leaves = item.leaves := by
  unfold Cardinality.wrap
  repeat' split
  all_goals rfl

/-- Types that all have identifier kinds are identifiers of these kinds. -/
theorem mapM_identifierKinds?_eq_some {members : List ValueType} {kinds : List NodeKinds}
    (h : members.mapM identifierKinds? = some kinds) :
    ∃ types : List IdentifierType, members = types.map identifier ∧
      kinds = types.map IdentifierType.kinds := by
  induction members generalizing kinds with
  | nil => exact ⟨[], rfl, by simpa using h.symm⟩
  | cons member rest ih =>
    rw [List.mapM_cons] at h
    obtain ⟨k, hk, hrest⟩ := Option.bind_eq_some_iff.1 h
    obtain ⟨ks, hks, hcons⟩ := Option.bind_eq_some_iff.1 hrest
    obtain ⟨types, rfl, rfl⟩ := ih hks
    cases member with
    | identifier type =>
      obtain rfl := Option.some.inj hk
      exact ⟨type :: types, rfl, (Option.some.inj hcons).symm⟩
    | literal | composite | set | option | object | objectComposite => cases hk

/-- There is a simpler type for generic literals, whatever their cardinality, and for
identifiers. -/
theorem shortcut?_cases {members : List ValueType} {v : ValueType}
    (h : shortcut? members = some v) :
    (v = literal {} ∧ ∀ member ∈ members, ∃ type : LiteralType,
      member.withoutCardinality = literal type ∧ type.isGeneric = true) ∨
    ∃ types : List IdentifierType, types ≠ [] ∧ members = types.map identifier ∧
      v = identifier { kinds := .unions (types.map IdentifierType.kinds) } := by
  unfold shortcut? at h
  split at h
  · next hall =>
    refine .inl ⟨(Option.some.inj h).symm, fun member hmember => ?_⟩
    have hgeneric := List.all_eq_true.1 hall member hmember
    cases hunder : member.withoutCardinality with
    | literal type => exact ⟨type, rfl, by simpa [hunder, isGenericLiteral] using hgeneric⟩
    | identifier | composite | set | option | object | objectComposite =>
      simp [hunder, isGenericLiteral] at hgeneric
  · next hall =>
    obtain ⟨kinds, hkinds, rfl⟩ := Option.map_eq_some_iff.1 h
    obtain ⟨types, rfl, rfl⟩ := mapM_identifierKinds?_eq_some hkinds
    refine .inr ⟨types, ?_, rfl, rfl⟩
    rintro rfl
    exact hall rfl

/-- Members amount to a literal without restrictions, or else they are identifiers and
amount to one of all their kinds. -/
theorem shortcut?_eq_some {members : List ValueType} {v : ValueType}
    (h : shortcut? members = some v) :
    v = literal {} ∨ ∃ types : List IdentifierType, types ≠ [] ∧ members = types.map identifier ∧
      v = identifier { kinds := .unions (types.map IdentifierType.kinds) } :=
  (shortcut?_cases h).imp_left And.left

/-- Members collapse to the only one, to a simpler type or to their composite. -/
theorem collapse_cases {kind : CompositeKind} {hasFixedValue : Bool} {members : List ValueType}
    {v : ValueType} (h : collapse kind hasFixedValue members = .ok v) :
    members = [v] ∨ shortcut? members = some v ∨ v = composite kind members := by
  unfold collapse at h
  split at h
  · exact .inl (Except.ok.inj h ▸ rfl)
  · split at h
    · next t ht =>
      obtain rfl := Except.ok.inj h
      split at ht
      · cases ht
      · exact .inr (.inl ht)
    · exact .inr (.inr (composite?_eq_ok.1 h).2)

/-- What members collapse to has the leaves of the members, or it is such a simpler type. -/
theorem collapse_eq_ok {kind : CompositeKind} {hasFixedValue : Bool} {members : List ValueType}
    {v : ValueType} (h : collapse kind hasFixedValue members = .ok v) :
    v.leaves = leavesList members ∨ shortcut? members = some v := by
  rcases collapse_cases h with rfl | hshortcut | rfl
  · exact .inl (by simp [leavesList])
  · exact .inr hshortcut
  · exact .inl rfl

end ValueType

theorem leaves_of_scalarType? {x : ScalarEvidence} {v : ValueType} (h : scalarType? x = some v) :
    v.leaves = [v] := by
  obtain ⟨rule, -, rfl⟩ := Option.map_eq_some_iff.1 h
  cases rule <;> rfl

end ShaclTypes
