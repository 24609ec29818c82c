import ShaclTypes.Shape.Values
set_option autoImplicit false

/-!
# Property paths in a store

An IRI is a predicate path.  Any other node is a path by virtue of the first of
six predicates that it has (`PathForm.ofNode?`): the cell of a collection is a
sequence, and `sh:inversePath` and its siblings say what the node is an inverse,
an alternative or a repetition of.
-/

namespace ShaclTypes

open ShaclTypes.Rdf ShaclTypes.Vocabulary

/-- What a node says about the path that it stands for. -/
inductive PathForm where
  | sequence
  | inverse (inner : Term)
  | alternative (head : Term)
  | zeroOrMore (inner : Term)
  | oneOrMore (inner : Term)
  | zeroOrOne (inner : Term)
  deriving DecidableEq, Repr

/-- The form of a node, by the first predicate of the six that it has. -/
def PathForm.ofNode? (s : TripleStore) (node : Term) : Option PathForm :=
  ((s.object? node rdf.first).map fun _ => .sequence)
    <|> (s.object? node sh.inversePath).map .inverse
    <|> (s.object? node sh.alternativePath).map .alternative
    <|> (s.object? node sh.zeroOrMorePath).map .zeroOrMore
    <|> (s.object? node sh.oneOrMorePath).map .oneOrMore
    <|> (s.object? node sh.zeroOrOnePath).map .zeroOrOne

/-- A node with a form is the subject of a statement. -/
theorem PathForm.mem_keys {s : TripleStore} {node : Term} {form : PathForm}
    (h : ofNode? s node = some form) : node ∈ s.bySubject.keys := by
  simp only [ofNode?, Option.orElse_eq_orElse, Option.orElse_eq_or, Option.or_eq_some_iff,
    Option.map_eq_some_iff] at h
  rcases h with ⟨_, h, _⟩ | ⟨_, ⟨_, h, _⟩ | ⟨_, ⟨_, h, _⟩ | ⟨_, ⟨_, h, _⟩ | ⟨_, ⟨_, h, _⟩ | ⟨_, _, h, _⟩⟩⟩⟩⟩
  all_goals exact TripleStore.mem_keys_of_object? h

namespace Path

set_option linter.unusedVariables false in
/-- The path at a node, where `trail` are the nodes of the paths around it.  A path that
contains itself is refused at the node that recurs.  Here the reading departs from the
loader that it models, which keeps no trail: on such a path that one recurses until the
stack overflows.  Wherever it returns, the two agree. -/
def ofNode (s : TripleStore) (trail : List Term) (node : Term) : Values.Read Path :=
  match node with
  | .iri i => .ok (.predicate i)
  | node =>
    if fresh : node ∈ trail then .error (.malformedPath node)
    else
      match h : PathForm.ofNode? s node with
      | none => .error (.malformedPath node)
      | some .sequence => do
        return .sequence (← (← Values.items s node).mapM (ofNode s (node :: trail)))
      | some (.inverse inner) => do return .inverse (← ofNode s (node :: trail) inner)
      | some (.alternative head) => do
        return .alternative (← (← Values.items s head).mapM (ofNode s (node :: trail)))
      | some (.zeroOrMore inner) => do return .zeroOrMore (← ofNode s (node :: trail) inner)
      | some (.oneOrMore inner) => do return .oneOrMore (← ofNode s (node :: trail) inner)
      | some (.zeroOrOne inner) => do return .zeroOrOne (← ofNode s (node :: trail) inner)
termination_by remaining s.bySubject.keys trail
decreasing_by
  all_goals
    exact remaining_lt (List.subset_cons_self _ trail) (PathForm.mem_keys h) fresh
      List.mem_cons_self

end Path

end ShaclTypes
