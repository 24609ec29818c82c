import Mathlib.Data.List.Nodup
import ShaclTypes.Rdf.PrefixMap
set_option autoImplicit false

/-!
# Compact IRIs and what they stand for

`Binding.Shortens` says when a binding can shorten an IRI, apart from any search for the
best one.  Shrinking takes the longest namespace that can and, of those of one length, the
one bound last; and because no label is bound twice, the label that it writes leads back
to this namespace (`shrink_longest_inverse`).
-/

namespace ShaclTypes.Rdf

/-! ## Bindings that shorten an IRI -/

/-- The binding shortens the IRI to the rest: the IRI is its namespace, which is not empty,
and then the rest, which is not empty and stays within one segment. -/
structure Binding.Shortens (b : Binding) (iri : Iri) (rest : String) : Prop where
  namespaced : b.base ≠ ""
  spelled : b.base ++ rest = iri.text
  nonempty : rest ≠ ""
  segment : ∀ c ∈ ['/', '#', '?'], c ∉ rest.toList

namespace PrefixMap

theorem isLocalPart_eq_true {cs : List Char} :
    isLocalPart cs = true ↔ cs ≠ [] ∧ ∀ c ∈ ['/', '#', '?'], c ∉ cs := by
  have hsegment : (cs.all fun c => c != '/' && c != '#' && c != '?') = true ↔
      ∀ c ∈ ['/', '#', '?'], c ∉ cs := by
    simp only [List.all_eq_true, Bool.and_eq_true, bne_iff_ne, List.forall_mem_cons]
    constructor
    · intro h
      refine ⟨?_, ?_, ?_, by simp⟩ <;> intro hmem
      · exact (h _ hmem).1.1 rfl
      · exact (h _ hmem).1.2 rfl
      · exact (h _ hmem).2 rfl
    · rintro ⟨hslash, hhash, hquery, -⟩ c hc
      refine ⟨⟨?_, ?_⟩, ?_⟩ <;> rintro rfl <;> contradiction
  rw [isLocalPart, Bool.and_eq_true, hsegment]
  simp

/-- A binding is a candidate for an IRI if it shortens it. -/
theorem candidate_eq_some {iri : Iri} {b : Binding} {length : Nat} {c : Curie} :
    Candidate.ofBinding? iri b = some (length, c) ↔
      length = b.base.length ∧ c.label = b.label ∧ b.Shortens iri c.localPart := by
  by_cases hbase : b.base = ""
  · refine ⟨fun h => ?_, fun h => absurd hbase h.2.2.namespaced⟩
    simp [Candidate.ofBinding?, hbase] at h
  obtain ⟨label, localPart⟩ := c
  have hspelled : ∀ rest, b.base.toList ++ rest = iri.text.toList ↔
      b.base ++ String.ofList rest = iri.text := by
    intro rest
    rw [← String.toList_inj, String.toList_append, String.toList_ofList]
  simp only [Candidate.ofBinding?, String.isEmpty_iff, if_neg hbase, Option.bind_eq_bind,
    Option.bind_eq_some_iff, List.isPrefixOf?_eq_some_iff_append_eq, hspelled,
    Option.ite_none_right_eq_some, isLocalPart_eq_true, Option.some.injEq, Prod.mk.injEq,
    Curie.mk.injEq]
  constructor
  · rintro ⟨rest, hiri, ⟨hrest, hsegment⟩, rfl, rfl, rfl⟩
    refine ⟨rfl, rfl, hbase, hiri, ?_, ?_⟩
    · rwa [ne_eq, ← String.toList_eq_nil_iff, String.toList_ofList]
    · rwa [String.toList_ofList]
  · rintro ⟨rfl, rfl, -, hiri, hrest, hsegment⟩
    refine ⟨localPart.toList, ?_, ⟨?_, hsegment⟩, rfl, rfl, String.ofList_toList⟩
    · rwa [String.ofList_toList]
    · rwa [ne_eq, String.toList_eq_nil_iff]

theorem candidate_eq_none {iri : Iri} {b : Binding} :
    Candidate.ofBinding? iri b = none ↔ ∀ rest, ¬b.Shortens iri rest := by
  rw [Option.eq_none_iff_forall_ne_some]
  constructor
  · exact fun h rest hrest => h (_, ⟨b.label, rest⟩) (candidate_eq_some.2 ⟨rfl, rfl, hrest⟩)
  · exact fun h c hc => h c.2.localPart (candidate_eq_some.1 hc).2.2

/-! ## The best candidate -/

theorem longest_eq_none {cs : List (Nat × Curie)} : longest cs = none ↔ cs = [] := by
  cases cs with
  | nil => simp [longest]
  | cons c rest =>
    rw [longest]
    repeat' split
    all_goals simp

/-- Those after the best candidate are shorter. -/
theorem longest_eq_some {cs : List (Nat × Curie)} {best : Nat × Curie}
    (h : longest cs = some best) :
    ∃ before after, cs = before ++ best :: after ∧ ∀ c ∈ after, c.1 < best.1 := by
  induction cs with
  | nil => cases h
  | cons c rest ih =>
    rw [longest] at h
    split at h
    · next hrest =>
      obtain rfl := Option.some.inj h
      obtain rfl := longest_eq_none.1 hrest
      exact ⟨[], [], rfl, by simp⟩
    · next best' hrest =>
      split at h
      · obtain rfl := Option.some.inj h
        obtain ⟨before, after, rfl, hafter⟩ := ih hrest
        exact ⟨c :: before, after, rfl, hafter⟩
      · next hshorter =>
        obtain rfl := Option.some.inj h
        refine ⟨[], rest, rfl, fun d hd => ?_⟩
        have hle := (longest_mem hrest).2 d hd
        omega

/-! ## Labels and their namespaces -/

/-- A label stands for the namespace that it is bound to, since it is bound once. -/
theorem lookup_label (m : PrefixMap) {b : Binding} (hb : b ∈ m.bindings) :
    m.lookup b.label = some b.base := by
  cases hfind : m.bindings.find? fun other => other.label == b.label with
  | none =>
    have hdiffers := List.find?_eq_none.1 hfind b hb
    simp at hdiffers
  | some other =>
    have hlabel : other.label = b.label := by simpa using List.find?_some hfind
    have hsame : other = b :=
      List.inj_on_of_nodup_map m.distinct (List.mem_of_find?_eq_some hfind) hb hlabel
    rw [lookup, hfind, hsame, Option.map_some]

/-- A compact IRI is spelled out by the namespace of its label, if no colon ends the label
before its end. -/
theorem expand_text (m : PrefixMap) {c : Curie} {base : String} (hcolon : ':' ∉ c.label.toList)
    (hlookup : m.lookup c.label = some base) : m.expand c.text = .ok ⟨base ++ c.localPart⟩ := by
  have hlabel : ∀ a ∈ c.label.toList, (a != ':') = true := by
    intro a ha
    rw [bne_iff_ne]
    rintro rfl
    exact hcolon ha
  have htext : c.text.toList = c.label.toList ++ ':' :: c.localPart.toList := by
    simp [Curie.text, String.toList_append]
  have htake : c.text.toList.takeWhile (· != ':') = c.label.toList := by
    rw [htext, List.takeWhile_append_of_pos hlabel]
    simp
  have hdrop : c.text.toList.dropWhile (· != ':') = ':' :: c.localPart.toList := by
    rw [htext, List.dropWhile_append_of_pos hlabel]
    simp
  simp only [expand, htake, hdrop, String.ofList_toList, hlookup]

/-- An IRI is not shrunk exactly if no binding shortens it.  If it is, then by a binding
that shortens it to the local part of the result and that its label leads to; no binding
that shortens the IRI has a longer namespace, and none after this one has one as long.
And the result spells out as the IRI, unless its label has a colon in it; the local part may
have one. -/
theorem shrink_longest_inverse (m : PrefixMap) (iri : Iri) :
    (m.shrink iri = none ↔ ∀ b ∈ m.bindings, ∀ rest, ¬b.Shortens iri rest) ∧
    ∀ c, m.shrink iri = some c →
      (∃ before b after, m.bindings = before ++ b :: after ∧ b.label = c.label ∧
        m.lookup c.label = some b.base ∧ b.Shortens iri c.localPart ∧
        (∀ b' ∈ m.bindings, ∀ rest, b'.Shortens iri rest → b'.base.length ≤ b.base.length) ∧
        ∀ b' ∈ after, ∀ rest, b'.Shortens iri rest → b'.base.length < b.base.length) ∧
      (':' ∉ c.label.toList → m.expand c.text = .ok iri) := by
  constructor
  · rw [shrink, Option.map_eq_none_iff, longest_eq_none, List.filterMap_eq_nil_iff]
    exact forall₂_congr fun b _ => candidate_eq_none
  · intro c hc
    obtain ⟨⟨length, c⟩, hbest, rfl⟩ := Option.map_eq_some_iff.1 hc
    have hcandidate : ∀ {bs : List Binding} {b : Binding} {rest : String}, b ∈ bs →
        b.Shortens iri rest → (b.base.length, ⟨b.label, rest⟩) ∈
          bs.filterMap (Candidate.ofBinding? iri) := fun hb hrest =>
      List.mem_filterMap.2 ⟨_, hb, candidate_eq_some.2 ⟨rfl, rfl, hrest⟩⟩
    obtain ⟨first, last, hsplit, hshorter⟩ := longest_eq_some hbest
    obtain ⟨before, tail, hbindings, -, htail⟩ := List.filterMap_eq_append_iff.1 hsplit
    obtain ⟨between, b, after, rfl, -, hb, hafter⟩ := List.filterMap_eq_cons_iff.1 htail
    obtain ⟨rfl, hlabel, hshortens⟩ := candidate_eq_some.1 hb
    have hmem : b ∈ m.bindings := by simp [hbindings]
    have hlookup : m.lookup c.label = some b.base := hlabel ▸ m.lookup_label hmem
    refine ⟨⟨before ++ between, b, after, by simpa using hbindings, hlabel.symm, hlookup,
      hshortens, fun b' hb' rest hrest => ?_, fun b' hb' rest hrest => ?_⟩, fun hcolon => ?_⟩
    · exact (longest_mem hbest).2 _ (hcandidate hb' hrest)
    · exact hshorter _ (hafter ▸ hcandidate hb' hrest)
    · rw [m.expand_text hcolon hlookup, hshortens.spelled]

/-- The label `doc` is bound again, to the namespace that `page` has too; `file` has a longer
one, but leaves nothing of the IRI. -/
def shelf : PrefixMap :=
  empty.insertAll [("doc", "urn:a"), ("page", "urn:doc:"), ("doc", "urn:doc:"),
    ("file", "urn:doc:3:7")]

theorem shrink_longest_inverse_shelf : shelf.shrink ⟨"urn:doc:3:7"⟩ = some ⟨"page", "3:7"⟩ ∧
    shelf.expand "page:3:7" = .ok ⟨"urn:doc:3:7"⟩ := by
  have hshrink : shelf.shrink ⟨"urn:doc:3:7"⟩ = some ⟨"page", "3:7"⟩ := by decide
  exact ⟨hshrink, ((shrink_longest_inverse _ _).2 _ hshrink).2 (by decide)⟩

end PrefixMap

end ShaclTypes.Rdf
