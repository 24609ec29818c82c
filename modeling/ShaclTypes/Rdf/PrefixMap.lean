import ShaclTypes.Rdf.Term
import ShaclTypes.Vocabulary
set_option autoImplicit false

/-!
# Prefix maps and compact IRIs

A prefix map binds short labels to namespaces.  It shortens an IRI to a compact
one against the longest namespace that fits (`PrefixMap.shrink`) and spells a
compact IRI out again (`PrefixMap.expand`).  No label is bound twice, which the
type records; `PrefixMap.lookup_insert` says what a binding does to lookups.
-/

namespace ShaclTypes.Rdf

open ShaclTypes.Vocabulary

/-- A compact IRI: a label and the part of the IRI after the namespace. -/
structure Curie where
  label : String
  localPart : String
  deriving DecidableEq, Repr, Inhabited

/-- The written form: label and local part around a colon. -/
def Curie.text (c : Curie) : String := c.label ++ ":" ++ c.localPart

/-- A label and the namespace that it stands for. -/
structure Binding where
  label : String
  base : String
  deriving DecidableEq, Repr, Inhabited

/-- Bindings in the order in which their labels were first bound. -/
structure PrefixMap where
  bindings : List Binding
  distinct : (bindings.map Binding.label).Nodup
  deriving DecidableEq, Repr

/-- Why a compact IRI cannot be spelled out. -/
inductive CurieError where
  /-- there is no colon in the text -/
  | noColon (text : String)
  /-- the label before the first colon is not bound -/
  | unboundLabel (label : String)
  deriving DecidableEq, Repr

/-- The wording of the error. -/
def CurieError.message : CurieError → String
  | noColon text => "Invalid CURIE: " ++ text
  | unboundLabel label => "Unknown prefix: " ++ label

namespace PrefixMap

/-- The map without bindings. -/
def empty : PrefixMap := ⟨[], List.nodup_nil⟩

/-! ## Binding a label -/

/-- Bind `label` to `base` where it stands, or at the end if it is new. -/
def bind (label base : String) : List Binding → List Binding
  | [] => [⟨label, base⟩]
  | b :: rest => if b.label = label then ⟨label, base⟩ :: rest else b :: bind label base rest

theorem labels_bind (label base : String) (bindings : List Binding) :
    (bind label base bindings).map Binding.label =
      if label ∈ bindings.map Binding.label then bindings.map Binding.label
      else bindings.map Binding.label ++ [label] := by
  induction bindings with
  | nil => simp [bind]
  | cons b rest ih =>
    by_cases h : b.label = label
    · simp [bind, h]
    · simp only [bind, h, if_false, List.map_cons, ih, List.mem_cons, Ne.symm h, false_or]
      split <;> simp

/-- Bind a label, in place of an earlier binding of the same label. -/
def insert (m : PrefixMap) (label base : String) : PrefixMap where
  bindings := bind label base m.bindings
  distinct := by
    rw [labels_bind]
    split
    · exact m.distinct
    · next fresh =>
      rw [List.nodup_append]
      refine ⟨m.distinct, by simp, ?_⟩
      intro a ha b hb
      rw [List.mem_singleton] at hb
      rintro rfl
      exact fresh (hb ▸ ha)

/-- Bind each label in turn. -/
def insertAll (m : PrefixMap) (pairs : List (String × String)) : PrefixMap :=
  pairs.foldl (fun m p => m.insert p.1 p.2) m

/-- The map of the customary labels. -/
def standard : PrefixMap :=
  empty.insertAll
    [("owl", owl.base), ("rdf", rdf.base), ("rdfs", rdfs.base), ("sh", sh.base), ("xsd", xsd.base)]

/-- The number of bindings. -/
def size (m : PrefixMap) : Nat := m.bindings.length

/-- The namespace that a label is bound to. -/
def lookup (m : PrefixMap) (label : String) : Option String :=
  (m.bindings.find? fun b => b.label == label).map Binding.base

theorem find?_bind (label base other : String) (bindings : List Binding) :
    ((bind label base bindings).find? fun b => b.label == other).map Binding.base =
      if other = label then some base
      else (bindings.find? fun b => b.label == other).map Binding.base := by
  by_cases h : other = label
  · subst h
    induction bindings with
    | nil => simp [bind]
    | cons b rest ih =>
      by_cases hb : b.label = other
      · simp [bind, hb]
      · simpa [bind, hb] using ih
  · induction bindings with
    | nil => simp [bind, h, Ne.symm h]
    | cons b rest ih =>
      by_cases hb : b.label = label
      · simp [bind, hb, h, Ne.symm h]
      · by_cases ho : b.label = other
        · subst ho
          simp [bind, hb]
        · simpa [bind, hb, ho, h] using ih

/-- A label stands for what it was last bound to; other labels keep their meaning. -/
theorem lookup_insert (m : PrefixMap) (label base other : String) :
    (m.insert label base).lookup other = if other = label then some base else m.lookup other :=
  find?_bind label base other m.bindings

/-! ## Shrinking -/

/-- Whether the rest of an IRI can be a local part: something, and within one
path segment. -/
def isLocalPart (cs : List Char) : Bool :=
  !cs.isEmpty && cs.all fun c => c != '/' && c != '#' && c != '?'

/-- How a binding shortens an IRI, with the length of its namespace. -/
def Candidate.ofBinding? (iri : Iri) (b : Binding) : Option (Nat × Curie) := do
  let rest ← if b.base.isEmpty then none else b.base.toList.isPrefixOf? iri.text.toList
  if isLocalPart rest then some (b.base.length, ⟨b.label, String.ofList rest⟩) else none

/-- The candidate of greatest length, and the last of those. -/
def longest : List (Nat × Curie) → Option (Nat × Curie)
  | [] => none
  | c :: rest =>
    match longest rest with
    | none => some c
    | some best => if c.1 ≤ best.1 then some best else some c

theorem longest_mem {cs : List (Nat × Curie)} {best : Nat × Curie}
    (h : longest cs = some best) : best ∈ cs ∧ ∀ c ∈ cs, c.1 ≤ best.1 := by
  induction cs generalizing best with
  | nil => cases h
  | cons c rest ih =>
    unfold longest at h
    split at h
    · next hrest =>
      obtain rfl := Option.some.inj h
      have : rest = [] := by
        cases rest with
        | nil => rfl
        | cons d ds =>
          unfold longest at hrest
          split at hrest <;> try split at hrest
          all_goals cases hrest
      subst this
      simp
    · next best' hrest =>
      obtain ⟨mem, le⟩ := ih hrest
      split at h
      · next hle =>
        obtain rfl := Option.some.inj h
        refine ⟨List.mem_cons_of_mem _ mem, ?_⟩
        intro d hd
        rcases List.mem_cons.1 hd with rfl | hd
        · exact hle
        · exact le d hd
      · next hlt =>
        obtain rfl := Option.some.inj h
        refine ⟨List.mem_cons_self, ?_⟩
        intro d hd
        rcases List.mem_cons.1 hd with rfl | hd
        · exact Nat.le_refl _
        · have := le d hd
          omega

/-- The compact form of an IRI against the longest namespace that leaves a local
part; of namespaces of one length the one bound last in the map. -/
def shrink (m : PrefixMap) (iri : Iri) : Option Curie :=
  (longest (m.bindings.filterMap (Candidate.ofBinding? iri))).map Prod.snd

/-! ## Expanding -/

/-- The IRI that a compact one stands for: the label ends at the first colon. -/
def expand (m : PrefixMap) (curie : String) : Except CurieError Iri :=
  let label := String.ofList (curie.toList.takeWhile (· != ':'))
  match curie.toList.dropWhile (· != ':') with
  | [] => .error (.noColon curie)
  | _ :: rest =>
    match m.lookup label with
    | none => .error (.unboundLabel label)
    | some base => .ok ⟨base ++ String.ofList rest⟩

end PrefixMap

end ShaclTypes.Rdf
