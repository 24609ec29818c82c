import ShaclTypes.Proofs.Sightings
set_option autoImplicit false

/-!
# Paths written as statements

How a path is written as statements about blank nodes, spelled out as a relation
(`Path.Encodes`): every form but the predicate has nodes of its own, and a list has one
cell for each of its elements.  A store may say more, but if it says nothing else about
these nodes, then it is read back from them (`Path.Encodes.readsBack`), since the form of a
node is the only one of the six that it has, and no node leads back to a node around it.
A shape whose path is written in this way, and of which nothing else is stated, is loaded
with exactly this path (`loading_decodes_paths`).
-/

namespace ShaclTypes

open ShaclTypes.Rdf ShaclTypes.Vocabulary ShaclTypes.Values

/-! ## The statements of a path -/

/-- What a path can be of one other path. -/
inductive PathModifier where
  | inverse
  | zeroOrMore
  | oneOrMore
  | zeroOrOne
  deriving DecidableEq, Repr

namespace PathModifier

/-- The path that is this of another path. -/
def path : PathModifier → Path → Path
  | inverse => .inverse
  | zeroOrMore => .zeroOrMore
  | oneOrMore => .oneOrMore
  | zeroOrOne => .zeroOrOne

/-- The predicate that leads to the other path. -/
def predicate : PathModifier → Iri
  | inverse => sh.inversePath
  | zeroOrMore => sh.zeroOrMorePath
  | oneOrMore => sh.oneOrMorePath
  | zeroOrOne => sh.zeroOrOnePath

end PathModifier

namespace Path

mutual

/-- Every sequence in the path has a step.  Without any, it would be written like the
predicate `rdf:nil`. -/
def hasSteps : Path → Bool
  | predicate _ => true
  | inverse path | zeroOrMore path | oneOrMore path | zeroOrOne path => path.hasSteps
  | sequence steps => !steps.isEmpty && allHaveSteps steps
  | alternative paths => allHaveSteps paths

/-- Every sequence in each of the paths has a step. -/
def allHaveSteps : List Path → Bool
  | [] => true
  | path :: paths => path.hasSteps && allHaveSteps paths

end

theorem hasSteps_modifier (m : PathModifier) (p : Path) : (m.path p).hasSteps = p.hasSteps := by
  cases m <;> rfl

mutual

/-- The path is written as the term, by statements about the blank nodes with these labels. -/
inductive Encodes : Path → Term → List String → List Triple → Prop
  | predicate (i : Iri) : Encodes (.predicate i) (.iri i) [] []
  | sequence {ps : List Path} {head : Term} {labels : List String} {triples : List Triple}
      (list : EncodesList ps head labels triples) : Encodes (.sequence ps) head labels triples
  | alternative {ps : List Path} {head : Term} {labels : List String} {triples : List Triple}
      (node : String) (list : EncodesList ps head labels triples) :
      Encodes (.alternative ps) (.blank node) ([node] ++ labels)
        ([⟨.blank node, sh.alternativePath, head⟩] ++ triples)
  | modified {p : Path} {inner : Term} {labels : List String} {triples : List Triple}
      (m : PathModifier) (node : String) (path : Encodes p inner labels triples) :
      Encodes (m.path p) (.blank node) ([node] ++ labels)
        ([⟨.blank node, m.predicate, inner⟩] ++ triples)

/-- The paths are written, in order, as the items of the list that starts at the term. -/
inductive EncodesList : List Path → Term → List String → List Triple → Prop
  | nil : EncodesList [] (.iri rdf.nil) [] []
  | cons {p : Path} {ps : List Path} {item next : Term} {labels labels' : List String}
      {triples triples' : List Triple} (cell : String) (first : Encodes p item labels triples)
      (rest : EncodesList ps next labels' triples') :
      EncodesList (p :: ps) (.blank cell) ([cell] ++ (labels ++ labels'))
        ([⟨.blank cell, rdf.first, item⟩, ⟨.blank cell, rdf.rest, next⟩] ++ (triples ++ triples'))

end

section Labels

variable (label : Nat → String)

theorem exists_encodes_modifier (m : PathModifier) {p : Path} {n : Nat}
    (h : ∃ t count triples, Encodes p t ((List.range' (n + 1) count).map label) triples) :
    ∃ t count triples, Encodes (m.path p) t ((List.range' n count).map label) triples :=
  let ⟨_, count, _, hp⟩ := h
  ⟨_, count + 1, _, .modified m (label n) hp⟩

mutual

/-- Every path can be written, with nodes that are numbered in one row. -/
theorem exists_encodes : ∀ (p : Path) (n : Nat),
    ∃ t count triples, Encodes p t ((List.range' n count).map label) triples
  | .predicate i, _ => ⟨_, 0, _, .predicate i⟩
  | .inverse p, n => exists_encodes_modifier label .inverse (exists_encodes p (n + 1))
  | .zeroOrMore p, n => exists_encodes_modifier label .zeroOrMore (exists_encodes p (n + 1))
  | .oneOrMore p, n => exists_encodes_modifier label .oneOrMore (exists_encodes p (n + 1))
  | .zeroOrOne p, n => exists_encodes_modifier label .zeroOrOne (exists_encodes p (n + 1))
  | .sequence ps, n =>
    let ⟨_, count, _, hps⟩ := exists_encodesList ps n
    ⟨_, count, _, .sequence hps⟩
  | .alternative ps, n =>
    let ⟨_, count, _, hps⟩ := exists_encodesList ps (n + 1)
    ⟨_, count + 1, _, .alternative (label n) hps⟩

/-- Every list of paths can be written, with nodes that are numbered in one row. -/
theorem exists_encodesList : ∀ (ps : List Path) (n : Nat),
    ∃ head count triples, EncodesList ps head ((List.range' n count).map label) triples
  | [], _ => ⟨_, 0, _, .nil⟩
  | p :: ps, n => by
    obtain ⟨_, count, _, hp⟩ := exists_encodes p (n + 1)
    obtain ⟨_, count', _, hps⟩ := exists_encodesList ps (n + 1 + count)
    have hcons := EncodesList.cons (label n) hp hps
    rw [← List.map_append, List.range'_append_1] at hcons
    exact ⟨_, count + count' + 1, _, hcons⟩

end

/-- Every path can be written with distinct nodes, if labels do not run out. -/
theorem exists_encodes_distinct (hlabel : Function.Injective label) (p : Path) :
    ∃ t labels triples, p.Encodes t labels triples ∧ labels.Nodup :=
  let ⟨_, _, _, hp⟩ := exists_encodes label p 0
  ⟨_, _, _, hp, List.Nodup.map hlabel List.nodup_range'⟩

end Labels

/-- The predicates of the statements that paths are written with. -/
def predicates : List Iri :=
  [rdf.first, rdf.rest, sh.inversePath, sh.alternativePath, sh.zeroOrMorePath, sh.oneOrMorePath,
    sh.zeroOrOnePath]

/-- The statement is about one of the blank nodes, with a predicate of paths. -/
def Describes (labels : List String) (u : Triple) : Prop :=
  (∃ l ∈ labels, u.subject = .blank l) ∧ u.predicate ∈ predicates

theorem Describes.mono {labels labels' : List String} {u : Triple} (h : Describes labels u)
    (hsub : labels ⊆ labels') : Describes labels' u :=
  let ⟨⟨l, hl, hsubject⟩, hpredicate⟩ := h
  ⟨⟨l, hsub hl, hsubject⟩, hpredicate⟩

theorem describes_append {labels labels' : List String} {triples triples' : List Triple}
    (h : ∀ u ∈ triples, Describes labels u) (h' : ∀ u ∈ triples', Describes labels' u) :
    ∀ u ∈ triples ++ triples', Describes (labels ++ labels') u := by
  intro u hu
  rcases List.mem_append.1 hu with hu | hu
  · exact (h u hu).mono (List.subset_append_left _ _)
  · exact (h' u hu).mono (List.subset_append_right _ _)

theorem describes_one {node : String} {predicate : Iri} {o : Term} (h : predicate ∈ predicates) :
    ∀ u ∈ [(⟨.blank node, predicate, o⟩ : Triple)], Describes [node] u :=
  List.forall_mem_singleton.2 ⟨⟨node, List.mem_singleton.2 rfl, rfl⟩, h⟩

/-- The statements about a cell. -/
theorem describes_cell {cell : String} {item next : Term} :
    ∀ u ∈ [(⟨.blank cell, rdf.first, item⟩ : Triple), ⟨.blank cell, rdf.rest, next⟩],
      Describes [cell] u :=
  List.forall_mem_cons.2 ⟨describes_one (by decide) _ List.mem_cons_self,
    describes_one (by decide)⟩

theorem predicate_mem_predicates (m : PathModifier) : m.predicate ∈ predicates := by
  cases m <;> decide

mutual

/-- A path is written by statements about its own nodes. -/
theorem Encodes.describes {p : Path} {t : Term} {labels : List String} {triples : List Triple} :
    Encodes p t labels triples → ∀ u ∈ triples, Describes labels u
  | .predicate _ => List.forall_mem_nil _
  | .sequence list => list.describes
  | .alternative _ list => describes_append (describes_one (by decide)) list.describes
  | .modified m _ inner =>
    describes_append (describes_one (predicate_mem_predicates m)) inner.describes

/-- A list of paths is written by statements about its cells and the nodes of the paths. -/
theorem EncodesList.describes {ps : List Path} {t : Term} {labels : List String}
    {triples : List Triple} :
    EncodesList ps t labels triples → ∀ u ∈ triples, Describes labels u
  | .nil => List.forall_mem_nil _
  | .cons _ first rest =>
    describes_append describes_cell (describes_append first.describes rest.describes)

end

end Path

/-! ## Reading a path back -/

namespace Rdf.TripleStore

variable {s : TripleStore}

/-- Of the blank nodes with these labels, the store says these statements and no others. -/
def SaysOf (s : TripleStore) (labels : List String) (triples : List Triple) : Prop :=
  ∀ l ∈ labels, ∀ predicate o,
    ⟨.blank l, predicate, o⟩ ∈ s.toList ↔ ⟨.blank l, predicate, o⟩ ∈ triples

/-- What is said of all the nodes is said of the first and of the others. -/
theorem SaysOf.split {labels labels' : List String} {triples triples' : List Triple}
    (h : s.SaysOf (labels ++ labels') (triples ++ triples'))
    (hnodup : (labels ++ labels').Nodup) (hfirst : ∀ u ∈ triples, Path.Describes labels u)
    (hothers : ∀ u ∈ triples', Path.Describes labels' u) :
    s.SaysOf labels triples ∧ s.SaysOf labels' triples' := by
  have hapart : ∀ l ∈ labels, l ∉ labels' := List.disjoint_of_nodup_append hnodup
  constructor
  · intro l hl predicate o
    rw [h l (List.mem_append_left _ hl), List.mem_append, or_iff_left]
    intro hu
    obtain ⟨⟨l', hl', hsubject⟩, -⟩ := hothers _ hu
    obtain rfl := Term.blank.inj hsubject
    exact hapart l hl hl'
  · intro l hl predicate o
    rw [h l (List.mem_append_right _ hl), List.mem_append, or_iff_right]
    intro hu
    obtain ⟨⟨l', hl', hsubject⟩, -⟩ := hfirst _ hu
    obtain rfl := Term.blank.inj hsubject
    exact hapart l hl' hl

section Objects

variable (h : s.Indexed) {subject o : Term} {predicate : Iri}
include h

theorem Indexed.object?_eq_some (hone : ∀ o', ⟨subject, predicate, o'⟩ ∈ s.toList ↔ o' = o) :
    s.object? subject predicate = some o := by
  obtain ⟨o', ho'⟩ := Option.isSome_iff_exists.1 (h.object?_isSome.2 ⟨o, (hone o).2 rfl⟩)
  rw [object?_eq_head?] at ho' ⊢
  rw [ho', (hone o').1 (h.mem_objects.1 (List.mem_of_mem_head? ho'))]

theorem Indexed.objects_eq_nil (hnone : ∀ o, ⟨subject, predicate, o⟩ ∉ s.toList) :
    s.objects subject predicate = [] :=
  List.eq_nil_iff_forall_not_mem.2 fun _ ho => hnone _ (h.mem_objects.1 ho)

theorem Indexed.object?_eq_none (hnone : ∀ o, ⟨subject, predicate, o⟩ ∉ s.toList) :
    s.object? subject predicate = none := by
  rw [object?_eq_head?, h.objects_eq_nil hnone, List.head?_nil]

end Objects

/-- The objects of a node of which one thing is said. -/
theorem Indexed.object?_of_one (h : s.Indexed) {node : String} {predicate : Iri} {o : Term}
    (hsaid : s.SaysOf [node] [⟨.blank node, predicate, o⟩]) (other : Iri) :
    s.object? (.blank node) other = if other = predicate then some o else none := by
  have hmem := hsaid node (List.mem_singleton.2 rfl)
  split
  · next heq =>
    subst heq
    exact h.object?_eq_some fun o' => (hmem other o').trans (by simp)
  · next hne =>
    refine h.object?_eq_none fun o' ho' => hne ?_
    have hsame := List.mem_singleton.1 ((hmem other o').1 ho')
    exact congrArg Triple.predicate hsame

end Rdf.TripleStore

namespace Path

variable {s : TripleStore} {trail : List Term} {node : String} {inner head : Term}

theorem ofNode_iri (i : Iri) : ofNode s trail (.iri i) = .ok (.predicate i) := by
  rw [ofNode]

/-- A node that is not met again is read by its form. -/
theorem ofNode_blank (hfresh : .blank node ∉ trail) {form : PathForm}
    (hform : PathForm.ofNode? s (.blank node) = some form) :
    ofNode s trail (.blank node) =
      match form with
      | .sequence => (items s (.blank node)).bind fun list =>
        (list.mapM (ofNode s (.blank node :: trail))).map .sequence
      | .inverse inner => (ofNode s (.blank node :: trail) inner).map .inverse
      | .alternative head => (items s head).bind fun list =>
        (list.mapM (ofNode s (.blank node :: trail))).map .alternative
      | .zeroOrMore inner => (ofNode s (.blank node :: trail) inner).map .zeroOrMore
      | .oneOrMore inner => (ofNode s (.blank node :: trail) inner).map .oneOrMore
      | .zeroOrOne inner => (ofNode s (.blank node :: trail) inner).map .zeroOrOne := by
  rw [ofNode, dif_neg hfresh]
  · split
    · next h => rw [hform] at h; cases h
    all_goals
      next h =>
        rw [hform] at h
        cases h
        rfl
  · exact fun i h => by cases h

/-- A list of paths starts at `rdf:nil` or at one of its nodes. -/
theorem EncodesList.head_eq {ps : List Path} {labels : List String} {triples : List Triple}
    (h : EncodesList ps head labels triples) :
    ps = [] ∨ ∃ cell ∈ labels, head = .blank cell := by
  cases h with
  | nil => exact .inl rfl
  | cons cell => exact .inr ⟨cell, List.mem_cons_self, rfl⟩

/-- The form of a node that one statement makes a path of another path. -/
theorem ofNode_modified (h : s.Indexed) (hfresh : .blank node ∉ trail) (m : PathModifier)
    (hsaid : s.SaysOf [node] [⟨.blank node, m.predicate, inner⟩]) {p : Path}
    (hinner : ofNode s (.blank node :: trail) inner = .ok p) :
    ofNode s trail (.blank node) = .ok (m.path p) := by
  have hobject := h.object?_of_one hsaid
  cases m
  all_goals
    rw [ofNode_blank hfresh (by simp only [PathForm.ofNode?, hobject]; rfl)]
    simp only [hinner]
    rfl

/-- Wherever a store says just these statements of these nodes, the term is read as the path. -/
def ReadsBack (s : TripleStore) (p : Path) (t : Term) (labels : List String)
    (triples : List Triple) : Prop :=
  p.hasSteps = true → labels.Nodup → s.SaysOf labels triples →
    ∀ trail, (∀ l ∈ labels, .blank l ∉ trail) → ofNode s trail t = .ok p

/-- Wherever a store says just these statements of these nodes, the term is a collection,
and its items are read as the paths.  The first cell may be the node that they belong to. -/
def ListReadsBack (s : TripleStore) (ps : List Path) (head : Term) (labels : List String)
    (triples : List Triple) : Prop :=
  allHaveSteps ps = true → labels.Nodup → s.SaysOf labels triples →
    ∃ list, s.IsCollection head list ∧
      ∀ trail, (∀ l ∈ labels, .blank l ∈ trail → .blank l = head) →
        list.mapM (ofNode s trail) = .ok ps

section ReadsBack

variable {p : Path} {ps : List Path} {item next : Term} {labels labels' : List String}
variable {triples triples' : List Triple} (h : s.Indexed)

theorem ListReadsBack.sequence (list : EncodesList ps head labels triples)
    (hlist : ListReadsBack s ps head labels triples) :
    ReadsBack s (.sequence ps) head labels triples := by
  intro hsteps hnodup hsaid trail hfresh
  simp only [hasSteps, Bool.and_eq_true, Bool.not_eq_true', List.isEmpty_eq_false_iff] at hsteps
  obtain ⟨cell, hcell, rfl⟩ := list.head_eq.resolve_left hsteps.1
  obtain ⟨terms, hterms, hread⟩ := hlist hsteps.2 hnodup hsaid
  have hform : PathForm.ofNode? s (.blank cell) = some .sequence := by
    cases hterms with
    | cons _ hfirst => simp only [PathForm.ofNode?, hfirst]; rfl
  have hpaths : terms.mapM (ofNode s (.blank cell :: trail)) = .ok ps :=
    hread _ fun l hl hmem => (List.mem_cons.1 hmem).resolve_right (hfresh l hl)
  simp only [ofNode_blank (hfresh cell hcell) hform, items_eq_ok.2 hterms, Except.bind, hpaths]
  rfl

include h

theorem ListReadsBack.alternative (list : EncodesList ps head labels triples)
    (hlist : ListReadsBack s ps head labels triples) :
    ReadsBack s (.alternative ps) (.blank node) ([node] ++ labels)
      ([⟨.blank node, sh.alternativePath, head⟩] ++ triples) := by
  intro hsteps hnodup hsaid trail hfresh
  obtain ⟨hnode, hothers⟩ := hsaid.split hnodup (describes_one (by decide)) list.describes
  have hnew : node ∉ labels := List.disjoint_of_nodup_append hnodup (List.mem_singleton.2 rfl)
  obtain ⟨terms, hterms, hread⟩ := hlist hsteps hnodup.of_append_right hothers
  have hform : PathForm.ofNode? s (.blank node) = some (.alternative head) := by
    simp only [PathForm.ofNode?, h.object?_of_one hnode]; rfl
  have hpaths : terms.mapM (ofNode s (.blank node :: trail)) = .ok ps := by
    refine hread _ fun l hl hmem => ?_
    rcases List.mem_cons.1 hmem with heq | hmem
    · exact absurd (Term.blank.inj heq ▸ hl) hnew
    · exact absurd hmem (hfresh l (List.mem_cons_of_mem _ hl))
  simp only [ofNode_blank (hfresh node List.mem_cons_self) hform, items_eq_ok.2 hterms,
    Except.bind, hpaths]
  rfl

theorem ReadsBack.modified (m : PathModifier) (path : Encodes p inner labels triples)
    (hpath : ReadsBack s p inner labels triples) :
    ReadsBack s (m.path p) (.blank node) ([node] ++ labels)
      ([⟨.blank node, m.predicate, inner⟩] ++ triples) := by
  intro hsteps hnodup hsaid trail hfresh
  obtain ⟨hnode, hothers⟩ :=
    hsaid.split hnodup (describes_one (predicate_mem_predicates m)) path.describes
  have hnew : node ∉ labels := List.disjoint_of_nodup_append hnodup (List.mem_singleton.2 rfl)
  rw [hasSteps_modifier] at hsteps
  refine ofNode_modified h (hfresh node List.mem_cons_self) m hnode
    (hpath hsteps hnodup.of_append_right hothers _ fun l hl hmem => ?_)
  rcases List.mem_cons.1 hmem with heq | hmem
  · exact hnew (Term.blank.inj heq ▸ hl)
  · exact hfresh l (List.mem_cons_of_mem _ hl) hmem

/-- The parts of a cell. -/
theorem object?_of_cell {cell : String}
    (hsaid : s.SaysOf [cell] [⟨.blank cell, rdf.first, item⟩, ⟨.blank cell, rdf.rest, next⟩]) :
    s.object? (.blank cell) rdf.first = some item ∧
      s.object? (.blank cell) rdf.rest = some next := by
  have hmem := hsaid cell (List.mem_singleton.2 rfl)
  have hne : rdf.first ≠ rdf.rest := by decide
  exact ⟨h.object?_eq_some fun o => (hmem _ o).trans (by simp [hne]),
    h.object?_eq_some fun o => (hmem _ o).trans (by simp [hne.symm])⟩

theorem ListReadsBack.cons {cell : String} (first : Encodes p item labels triples)
    (rest : EncodesList ps next labels' triples') (hfirst : ReadsBack s p item labels triples)
    (hrest : ListReadsBack s ps next labels' triples') :
    ListReadsBack s (p :: ps) (.blank cell) ([cell] ++ (labels ++ labels'))
      ([⟨.blank cell, rdf.first, item⟩, ⟨.blank cell, rdf.rest, next⟩] ++
        (triples ++ triples')) := by
  intro hsteps hnodup hsaid
  simp only [allHaveSteps, Bool.and_eq_true] at hsteps
  obtain ⟨hcell, hothers⟩ := hsaid.split hnodup describes_cell
    (describes_append first.describes rest.describes)
  have hnew : cell ∉ labels ++ labels' :=
    List.disjoint_of_nodup_append hnodup (List.mem_singleton.2 rfl)
  have hnodup := hnodup.of_append_right
  obtain ⟨hsaid, hsaid'⟩ := hothers.split hnodup first.describes rest.describes
  obtain ⟨list, hlist, hread⟩ := hrest hsteps.2 hnodup.of_append_right hsaid'
  obtain ⟨hitem, hnext⟩ := object?_of_cell h hcell
  refine ⟨item :: list, .cons (by simp) hitem hnext hlist, fun trail htrail => ?_⟩
  -- of the nodes of the list, only the first cell can be around its items
  have haround : ∀ l ∈ labels ++ labels', .blank l ∉ trail := fun l hl hmem =>
    hnew (Term.blank.inj (htrail l (List.mem_cons_of_mem _ hl) hmem) ▸ hl)
  rw [List.mapM_cons,
    hfirst hsteps.1 hnodup.of_append_left hsaid trail fun l hl =>
      haround l (List.mem_append_left _ hl),
    hread trail fun l hl hmem => absurd hmem (haround l (List.mem_append_right _ hl))]
  rfl

end ReadsBack

mutual

/-- What a path is written as is read as the path. -/
theorem Encodes.readsBack (h : s.Indexed) {p : Path} {t : Term} {labels : List String}
    {triples : List Triple} : Encodes p t labels triples → ReadsBack s p t labels triples
  | .predicate i => fun _ _ _ _ _ => ofNode_iri i
  | .sequence list => (list.readsBack h).sequence list
  | .alternative _ list => (list.readsBack h).alternative h list
  | .modified m _ path => (path.readsBack h).modified h m path

/-- What paths are written as in a list is read as the paths. -/
theorem EncodesList.readsBack (h : s.Indexed) {ps : List Path} {t : Term} {labels : List String}
    {triples : List Triple} : EncodesList ps t labels triples → ListReadsBack s ps t labels triples
  | .nil => fun _ _ _ => ⟨[], .nil, fun _ _ => rfl⟩
  | .cons _ first rest => .cons h first rest (first.readsBack h) (rest.readsBack h)

end

end Path

/-! ## Loading a path -/

/-- The predicates of statements that list members are not those of paths. -/
theorem composite_not_path : ∀ predicate ∈ Path.predicates,
    predicate ∉ [sh.conjunction, sh.disjunction, sh.exclusiveDisjunction] := by
  decide

/-- No statement of a path refers to a shape. -/
theorem not_refersToShape {s : TripleStore} {subject o t : Term} {predicate : Iri}
    (h : predicate ∈ Path.predicates) : ¬RefersToShape s ⟨subject, predicate, o⟩ t := by
  intro ht
  cases ht with
  | member _ hcomposite => exact composite_not_path _ h hcomposite
  | _ => exact absurd h (by decide)

/-- The statement of its path refers to the subject alone. -/
theorem refersToShape_path_iff {s : TripleStore} {subject node t : Term} :
    RefersToShape s ⟨subject, sh.path, node⟩ t ↔ t = subject := by
  constructor
  · intro ht
    generalize hpath : sh.path = predicate at ht
    cases ht with
    | path => rfl
    | member _ hcomposite => subst hpath; exact absurd hcomposite (by decide)
    | _ => exact absurd hpath (by decide)
  · rintro rfl
    exact .path _ _

/-- A shape of which nothing is stated but its path. -/
theorem ofStore_of_path {s : TripleStore} {subject node : Term} {p : Path} (h : s.Indexed)
    (hpath : ∀ predicate o,
      ⟨subject, predicate, o⟩ ∈ s.toList ↔ predicate = sh.path ∧ o = node)
    (hread : Path.ofNode s [] node = .ok p) :
    Shape.ofStore s subject = .ok { identifier := subject, path := some p } := by
  have hnode : s.object? subject sh.path = some node :=
    h.object?_eq_some fun o => (hpath _ o).trans (and_iff_right rfl)
  have hobjects : ∀ q, q ≠ sh.path → s.objects subject q = [] := fun q hq =>
    h.objects_eq_nil fun o ho => hq ((hpath q o).1 ho).1
  have hobject : ∀ q, q ≠ sh.path → s.object? subject q = none := fun q hq =>
    h.object?_eq_none fun o ho => hq ((hpath q o).1 ho).1
  have hpath' : Shape.pathOfStore s subject = .ok (some p) := by
    rw [Shape.pathOfStore, hnode]
    exact congrArg (Except.map some) hread
  have hconstraints : Constraints.ofStore s subject = .ok {} := by
    simp (disch := decide) only [Constraints.ofStore, Bounds.ofStore, members, membersOf, all,
      first?, hobjects, hobject, List.mapM_nil]
    rfl
  have hannotations : Annotations.ofStore s subject = .ok {} := by
    simp (disch := decide) only [Annotations.ofStore, Annotations.labelOfStore, all,
      first?, hobjects, hobject, List.mapM_nil]
    rfl
  simp (disch := decide) only [Shape.ofStore, hpath', hconstraints, hannotations, all, hobjects,
    Shape.isClassIn, List.mapM_nil, List.any_nil]
  rfl

/-- Collecting one element over and over gives it once. -/
theorem addAll_eq_singleton {α : Type} [DecidableEq α] {l : List α} {a : α}
    (h : ∀ b, b ∈ l ↔ b = a) : addAll [] l = [a] := by
  refine List.perm_singleton.1
    ((List.perm_ext_iff_of_nodup (nodup_addAll List.nodup_nil _) (List.nodup_singleton a)).2 ?_)
  intro b
  rw [mem_addAll, h, List.mem_singleton, or_iff_right List.not_mem_nil]

/-- What is sighted is what the statements refer to. -/
theorem mem_sighted_iff {s : TripleStore} {sightings : List Sighting}
    (h : s.toList.mapM (Sighting.ofTriple s) = .ok sightings) {t : Term} :
    t ∈ sightings.flatMap Sighting.shapes ↔ ∃ u ∈ s.toList, RefersToShape s u t := by
  rw [List.mem_flatMap]
  constructor
  · rintro ⟨sighting, hsighting, ht⟩
    obtain ⟨u, hu, hof⟩ := exists_source_of_mem h hsighting
    exact ⟨u, hu, (mem_shapes_ofTriple hof).1 ht⟩
  · rintro ⟨u, hu, ht⟩
    obtain ⟨sighting, hsighting, hof⟩ := exists_result_of_mem h hu
    exact ⟨sighting, hsighting, (mem_shapes_ofTriple hof).2 ht⟩

/-- A store that shows one shape is loaded as this shape. -/
theorem ofStore_of_one_shape {s : TripleStore} {identifier : Term} {shape : Shape}
    (hscan : ∀ u ∈ s.toList, ∃ sighting, Sighting.ofTriple s u = .ok sighting)
    (honly : ∀ t, (∃ u ∈ s.toList, RefersToShape s u t) ↔ t = identifier)
    (hshape : Shape.ofStore s identifier = .ok shape) (prefixes : PrefixMap) :
    ∃ g, ShapesGraph.ofStore s prefixes = .ok g ∧ g.shapes = [shape] := by
  obtain ⟨sightings, hsightings⟩ := exists_mapM_eq_ok hscan
  have hfound : addAll [] (sightings.flatMap Sighting.shapes) = [identifier] :=
    addAll_eq_singleton fun t => (mem_sighted_iff hsightings).trans (honly t)
  have hread : [identifier].mapM (Shape.ofStore s) = .ok [shape] := by
    rw [List.mapM_cons, hshape]
    rfl
  refine ⟨{
    shapes := [shape]
    declared := (addAll [] (sightings.flatMap Sighting.nodeShapes)).filter
      fun t => (s.object? t sh.path).isNone
    hierarchy := .ofStore s
    prefixes }, ?_, rfl⟩
  rw [ShapesGraph.ofStore, hsightings]
  simp only [bind, Except.bind, hfound, hread]
  rfl

/-- A path that is written with blank nodes of its own, as the path of a subject that is
none of them, is loaded: the graph of these statements has the subject as its only shape,
with exactly this path and nothing else. -/
theorem loading_decodes_paths {p : Path} (hsteps : p.hasSteps = true) {node : Term}
    {labels : List String} {triples : List Triple} (hencodes : p.Encodes node labels triples)
    (hdistinct : labels.Nodup) {subject : Term} (hsubject : ∀ l ∈ labels, subject ≠ .blank l)
    {statements : List Triple}
    (hstatements : ∀ u, u ∈ statements ↔ u = ⟨subject, sh.path, node⟩ ∨ u ∈ triples)
    (prefixes : PrefixMap) :
    ∃ g, ShapesGraph.ofTriples statements prefixes = .ok g ∧
      g.shapes = [{ identifier := subject, path := some p }] := by
  have hindexed := TripleStore.indexed_ofList statements
  have hmem : ∀ u, u ∈ (TripleStore.ofList statements).toList ↔
      u = ⟨subject, sh.path, node⟩ ∨ u ∈ triples := fun u =>
    TripleStore.mem_toList_ofList.trans (hstatements u)
  have hsaid : (TripleStore.ofList statements).SaysOf labels triples := fun l hl predicate o =>
    (hmem _).trans (or_iff_right fun heq => hsubject l hl (congrArg Triple.subject heq).symm)
  have hpath : ∀ predicate o, ⟨subject, predicate, o⟩ ∈ (TripleStore.ofList statements).toList ↔
      predicate = sh.path ∧ o = node := by
    intro predicate o
    rw [hmem, or_iff_left]
    · simp
    · intro hu
      obtain ⟨⟨l, hl, heq⟩, -⟩ := hencodes.describes _ hu
      exact hsubject l hl heq
  refine ofStore_of_one_shape (fun u hu => ⟨_, ofTriple_single ?_⟩) (fun t => ?_)
    (ofStore_of_path hindexed hpath
      (hencodes.readsBack hindexed hsteps hdistinct hsaid [] fun _ _ => List.not_mem_nil)) prefixes
  · rcases (hmem u).1 hu with rfl | hu
    · exact (by decide : sh.path ∉ [sh.conjunction, sh.disjunction, sh.exclusiveDisjunction])
    · exact composite_not_path _ (hencodes.describes u hu).2
  · constructor
    · rintro ⟨u, hu, ht⟩
      rcases (hmem u).1 hu with rfl | hu
      · exact refersToShape_path_iff.1 ht
      · exact absurd ht (not_refersToShape (hencodes.describes u hu).2)
    · rintro rfl
      exact ⟨_, (hmem _).2 (.inl rfl), refersToShape_path_iff.2 rfl⟩

/-! The path of a mother's brothers: the inverse of a child's mother, then one of two
predicates. -/

namespace Path

/-- The path. -/
def uncles : Path :=
  .sequence [.inverse (.sequence [.predicate ⟨"mother"⟩]),
    .alternative [.predicate ⟨"brother"⟩, .zeroOrMore (.alternative [])]]

/-- The statements that it is written with. -/
def unclesTriples : List Triple :=
  [⟨.blank "a", rdf.first, .blank "b"⟩, ⟨.blank "a", rdf.rest, .blank "d"⟩,
   ⟨.blank "b", sh.inversePath, .blank "c"⟩,
   ⟨.blank "c", rdf.first, .iri ⟨"mother"⟩⟩, ⟨.blank "c", rdf.rest, .iri rdf.nil⟩,
   ⟨.blank "d", rdf.first, .blank "e"⟩, ⟨.blank "d", rdf.rest, .iri rdf.nil⟩,
   ⟨.blank "e", sh.alternativePath, .blank "f"⟩,
   ⟨.blank "f", rdf.first, .iri ⟨"brother"⟩⟩, ⟨.blank "f", rdf.rest, .blank "g"⟩,
   ⟨.blank "g", rdf.first, .blank "h"⟩, ⟨.blank "g", rdf.rest, .iri rdf.nil⟩,
   ⟨.blank "h", sh.zeroOrMorePath, .blank "i"⟩,
   ⟨.blank "i", sh.alternativePath, .iri rdf.nil⟩]

theorem encodes_uncles : uncles.Encodes (.blank "a")
    ["a", "b", "c", "d", "e", "f", "g", "h", "i"] unclesTriples :=
  .sequence (.cons "a" (.modified .inverse "b" (.sequence (.cons "c" (.predicate _) .nil)))
    (.cons "d" (.alternative "e" (.cons "f" (.predicate _)
      (.cons "g" (.modified .zeroOrMore "h" (.alternative "i" .nil)) .nil))) .nil))

end Path

theorem loading_decodes_paths_uncles : ∃ g,
    ShapesGraph.ofTriples (⟨.iri ⟨"uncle"⟩, sh.path, .blank "a"⟩ :: Path.unclesTriples) .empty =
      .ok g ∧ g.shapes = [{ identifier := .iri ⟨"uncle"⟩, path := some Path.uncles }] :=
  loading_decodes_paths (by decide) Path.encodes_uncles (by decide) (by simp)
    (fun _ => List.mem_cons) .empty

end ShaclTypes
