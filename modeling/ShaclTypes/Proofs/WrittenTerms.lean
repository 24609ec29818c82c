import ShaclTypes.Proofs.Readback
import ShaclTypes.Rdf.Lexical
import ShaclTypes.Rdf.NTriples
set_option autoImplicit false

/-!
# Terms and their written forms

In messages, events and names, terms are told apart by their N-Triples form alone.  Nothing
but lexical forms is escaped there; but IRIs, labels and languages come last in what is
written, so they end where it ends, and the quote that closes a lexical form is the first one
without a backslash.  Hence terms that are written alike are the same, except that the
datatype of a literal with a language is not written (`ntriples_eq_iff`); and if there is only
one datatype for such literals, distinct terms are written differently (`ntriples_tells_apart`).
-/

namespace ShaclTypes.Rdf

open ShaclTypes.Text ShaclTypes.Vocabulary

/-! ## Lexical forms -/

/-- The character whose escape goes on like this after the backslash. -/
def afterBackslash? : List Char → Option Char
  | [] => none
  | c :: rest =>
    if c = 't' then some '\t'
    else if c = 'n' then some '\n'
    else if c = 'r' then some '\r'
    else if c = 'u' then some (Char.ofNat (hexValue ((rest.drop 1).takeWhile (· != '\x7d'))))
    else some c

/-- The first character of a lexical form, read off its escaped form.  There is none before
the closing quote. -/
def firstLexical? : List Char → Option Char
  | [] => none
  | c :: rest =>
    if c = '"' then none else if c = '\\' then afterBackslash? rest else some c

theorem takeWhile_hexDigits (n : Nat) (rest : List Char) :
    (hexDigits n ++ '\x7d' :: rest).takeWhile (· != '\x7d') = hexDigits n := by
  have hdigits : ∀ c ∈ hexDigits n, (c != '\x7d') = true := by
    intro c hc
    rw [bne_iff_ne]
    rintro rfl
    exact absurd (hexDigit?_of_mem_toDigits hc) (by decide)
  rw [List.takeWhile_append_of_pos hdigits]
  simp

theorem readsBack_escapeChar (c : Char) : ReadsBack firstLexical? escapeChar c := by
  intro rest
  unfold escapeChar
  split
  · next h => exact congrArg some h.symm
  split
  · next h => exact congrArg some h.symm
  split
  · next h => exact congrArg some h.symm
  split
  · next h => rcases h with rfl | rfl | rfl <;> rfl
  · next hplain =>
    simp only [not_or] at hplain
    split
    · simp [firstLexical?, hplain]
    · have hcode : firstLexical? ((['\\', 'u', '\x7b'] ++ hexDigits c.toNat ++ ['\x7d']) ++ rest) =
          some (Char.ofNat (hexValue
            ((hexDigits c.toNat ++ '\x7d' :: rest).takeWhile (· != '\x7d')))) := by
        simp [firstLexical?, afterBackslash?]
      rw [hcode, takeWhile_hexDigits, hexDigits, hexValue_toDigits, Char.ofNat_toNat]

/-! ## Literals -/

namespace Literal

/-- What is written after the lexical form: the language, or else the datatype. -/
def qualifier (l : Literal) : List Char :=
  match l.language with
  | some language => '@' :: language.toList
  | none => '^' :: '^' :: '<' :: (l.datatype.text.toList ++ ['>'])

theorem toList_ntriples (l : Literal) :
    l.ntriples.toList = '"' :: (l.lexical.toList.flatMap escapeChar ++ '"' :: l.qualifier) := by
  unfold ntriples qualifier
  cases l.language <;> simp [String.toList_append, toList_escape]

theorem qualifier_inj {l m : Literal} : l.qualifier = m.qualifier ↔
    l.language = m.language ∧ (l.language = none → l.datatype = m.datatype) := by
  obtain ⟨-, ⟨datatype⟩, language⟩ := l
  obtain ⟨-, ⟨datatype'⟩, language'⟩ := m
  cases language <;> cases language' <;> simp [qualifier, String.toList_inj]

/-- Literals are written alike if they have the same lexical form, the same language or
neither has any, and in that case the same datatype. -/
theorem ntriples_inj {l m : Literal} : l.ntriples = m.ntriples ↔
    l.lexical = m.lexical ∧ l.language = m.language ∧
      (l.language = none → l.datatype = m.datatype) := by
  rw [← qualifier_inj, ← String.toList_inj, toList_ntriples, toList_ntriples]
  constructor
  · intro h
    obtain ⟨hlexical, hqualifier⟩ := flatMap_append_inj (fun c _ => readsBack_escapeChar c)
      (fun c _ => readsBack_escapeChar c) rfl rfl (List.cons.inj h).2
    exact ⟨String.toList_inj.1 hlexical, (List.cons.inj hqualifier).2⟩
  · rintro ⟨hlexical, hqualifier⟩
    rw [hlexical, hqualifier]

end Literal

/-! ## Terms -/

namespace Term

/-- A term that, if it is a literal with a language, has the datatype of such literals. -/
def WellTagged (t : Term) : Prop :=
  ∀ l, t = literal l → l.language ≠ none → l.datatype = rdf.langString

theorem wellTagged_tagged (lexical language : String) :
    (literal (.tagged lexical language)).WellTagged := by
  intro l hl _
  obtain rfl := literal.inj hl
  rfl

/-- The character that the written form begins with. -/
def mark : Term → Char
  | iri _ => '<'
  | blank _ => '_'
  | literal _ => '"'

theorem head?_ntriples (t : Term) : t.ntriples.toList.head? = some t.mark := by
  cases t <;> simp [ntriples, mark, Literal.toList_ntriples, String.toList_append]

/-- Terms that are written alike are the same, or they are literals with one lexical form and
one language, whatever their datatypes. -/
theorem ntriples_eq_iff {t u : Term} : t.ntriples = u.ntriples ↔
    t = u ∨ ∃ l m, t = literal l ∧ u = literal m ∧ l.lexical = m.lexical ∧
      l.language = m.language ∧ l.language ≠ none := by
  constructor
  · intro h
    have hmark : t.mark = u.mark := by
      rw [← Option.some_inj, ← head?_ntriples, ← head?_ntriples, h]
    match t, u with
    | iri ⟨text⟩, iri ⟨text'⟩ =>
      simp only [ntriples, String.append_left_inj, String.append_right_inj] at h
      exact .inl (by rw [h])
    | blank label, blank label' =>
      simp only [ntriples, String.append_right_inj] at h
      exact .inl (by rw [h])
    | literal l, literal m =>
      obtain ⟨hlexical, hlanguage, hdatatype⟩ := Literal.ntriples_inj.1 h
      by_cases hnone : l.language = none
      · obtain ⟨lexical, datatype, language⟩ := l
        obtain ⟨lexical', datatype', language'⟩ := m
        simp only at hlexical hlanguage hdatatype hnone
        exact .inl (by rw [hlexical, hlanguage, hdatatype hnone])
      · exact .inr ⟨l, m, rfl, rfl, hlexical, hlanguage, hnone⟩
    | iri _, blank _ | iri _, literal _ | blank _, iri _ | blank _, literal _
    | literal _, iri _ | literal _, blank _ => simp [mark] at hmark
  · rintro (rfl | ⟨l, m, rfl, rfl, hlexical, hlanguage, hsome⟩)
    · rfl
    · exact Literal.ntriples_inj.2 ⟨hlexical, hlanguage, fun hnone => absurd hnone hsome⟩

/-- Distinct terms are written differently, if literals with a language have the datatype of
such literals. -/
theorem ntriples_tells_apart {t u : Term} (ht : t.WellTagged) (hu : u.WellTagged) (hne : t ≠ u) :
    t.ntriples ≠ u.ntriples := by
  intro h
  rcases ntriples_eq_iff.1 h with hsame | ⟨l, m, rfl, rfl, hlexical, hlanguage, hsome⟩
  · exact hne hsame
  · have hdatatype : l.datatype = m.datatype :=
      (ht l rfl hsome).trans (hu m rfl (hlanguage ▸ hsome)).symm
    obtain ⟨lexical, datatype, language⟩ := l
    obtain ⟨lexical', datatype', language'⟩ := m
    simp only at hlexical hlanguage hdatatype
    exact hne (by rw [hlexical, hlanguage, hdatatype])

/-- If the quote were not escaped, both would be written `"a"@b"@c`. -/
theorem ntriples_tells_apart_quotes :
    (literal (.tagged "a" "b\"@c")).WellTagged ∧ (literal (.tagged "a\"@b" "c")).WellTagged ∧
      literal (.tagged "a" "b\"@c") ≠ literal (.tagged "a\"@b" "c") ∧
      (literal (.tagged "a" "b\"@c")).ntriples ≠ (literal (.tagged "a\"@b" "c")).ntriples :=
  ⟨wellTagged_tagged _ _, wellTagged_tagged _ _, by decide,
    ntriples_tells_apart (wellTagged_tagged _ _) (wellTagged_tagged _ _) (by decide)⟩

end Term

end ShaclTypes.Rdf
