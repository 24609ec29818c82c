import ShaclTypes.Rdf.Term
import Std.Data.TreeMap
set_option autoImplicit false

/-!
# The order of RDF terms

IRIs come before blank nodes and blank nodes before literals.  Within a kind
the texts decide, code point by code point; literals with one lexical form are
ordered by datatype and then by language, a missing language first.  The order
is total and agrees with equality (`Term.eq_of_compare`), so terms can be the
keys of a search tree.
-/

namespace ShaclTypes.Rdf

namespace Term

/-- The rank of a kind of term in the order. -/
def rank : Term → Nat
  | iri _ => 0
  | blank _ => 1
  | literal _ => 2

/-- The text that decides within a kind: IRI, label or lexical form. -/
def text : Term → String
  | iri i => i.text
  | blank label => label
  | literal l => l.lexical

/-- What decides between literals of one lexical form. -/
def qualifiers : Term → String × Option String
  | iri _ | blank _ => ("", none)
  | literal l => (l.datatype.text, l.language)

/-- Kind, then text, then datatype, then language. -/
def order : Term → Term → Ordering :=
  compareLex (compareOn rank)
    (compareLex (compareOn text)
      (compareLex (compareOn fun t => t.qualifiers.1) (compareOn fun t => t.qualifiers.2)))

end Term

instance : Ord Term := ⟨Term.order⟩

instance : Std.TransOrd Term :=
  inferInstanceAs (Std.TransCmp
    (compareLex (compareOn Term.rank)
      (compareLex (compareOn Term.text)
        (compareLex (compareOn fun t : Term => t.qualifiers.1)
          (compareOn fun t : Term => t.qualifiers.2)))))

/-- Terms that compare equal are equal. -/
theorem Term.eq_of_compare {a b : Term} (h : compare a b = .eq) : a = b := by
  have h' : Term.order a b = .eq := h
  simp only [Term.order, compareLex_eq_eq] at h'
  obtain ⟨hrank, htext, hdatatype, hlanguage⟩ := h'
  have hrank := Std.LawfulEqOrd.eq_of_compare hrank
  have htext := Std.LawfulEqOrd.eq_of_compare htext
  have hdatatype := Std.LawfulEqOrd.eq_of_compare hdatatype
  have hlanguage := Std.LawfulEqOrd.eq_of_compare hlanguage
  match a, b with
  | .iri ⟨_⟩, .iri ⟨_⟩ => exact congrArg (fun t => Term.iri ⟨t⟩) htext
  | .blank _, .blank _ => exact congrArg Term.blank htext
  | .literal ⟨_, ⟨_⟩, _⟩, .literal ⟨_, ⟨_⟩, _⟩ =>
    simp only [Term.text] at htext
    simp only [Term.qualifiers] at hdatatype hlanguage
    simp [htext, hdatatype, hlanguage]
  | .iri _, .blank _ | .iri _, .literal _ | .blank _, .iri _ | .blank _, .literal _
  | .literal _, .iri _ | .literal _, .blank _ => simp [Term.rank] at hrank

instance : Std.LawfulEqOrd Term := ⟨Term.eq_of_compare⟩

/-- The terms in ascending order; equal terms keep their number. -/
def Term.sort (terms : List Term) : List Term :=
  terms.mergeSort fun a b => compare a b != .gt

theorem Term.sort_perm (terms : List Term) : (Term.sort terms).Perm terms :=
  List.mergeSort_perm terms _

end ShaclTypes.Rdf
