import ShaclTypes.Naming.Resolving
import ShaclTypes.Proofs.Readback
set_option autoImplicit false

/-!
# Names as identifiers

Whatever a shape is named after, its name is an identifier and not a reserved one
(`name_free_identifier`).  The test for reserved identifiers comes before the escaping, so
it has to be seen that escaping leads to none: an identifier without underscores has not
been changed at all.

Nor are names merged on the way (`sanitize_keeps_apart`).  Escapes, the underscore in front
and the marks of a reserved identifier are all made of underscores, but a text that has none
is read back from its identifier: marks are not followed by a digit, all else that begins with
an underscore is, and an odd number of underscores tells that there is one in front.
-/

namespace ShaclTypes

open ShaclTypes.Text

/-! ## Identifiers -/

/-- An identifier: ASCII letters, digits and underscores, at least one, and no digit first. -/
structure IsIdentifier (text : String) : Prop where
  nonempty : text ≠ ""
  chars : ∀ c ∈ text.toList, c.isAlphanum = true ∨ c = '_'
  start : ∀ c ∈ text.toList.head?, c.isDigit = false

/-- Settings in which the reserved identifiers are words of ASCII letters and are set apart by
underscores on either side. -/
structure Settings.SetsApart (s : Settings) : Prop where
  words : ∀ w ∈ s.reserved, w ≠ "" ∧ ∀ c ∈ w.toList, c.isAlpha = true
  before : s.reservedPrefix ≠ "" ∧ ∀ c ∈ s.reservedPrefix.toList, c = '_'
  after : s.reservedSuffix ≠ "" ∧ ∀ c ∈ s.reservedSuffix.toList, c = '_'

theorem Settings.standard_setsApart : standard.SetsApart where
  words w hw := by
    -- as a boolean, lest `decide` go through all characters there are
    have hstandard : ∀ w ∈ standardReserved, w ≠ "" ∧ w.toList.all Char.isAlpha = true := by decide
    obtain ⟨hne, hletters⟩ := hstandard w (mem_ascending.1 hw)
    exact ⟨hne, List.all_eq_true.1 hletters⟩
  before := by simp [standard]
  after := by simp [standard]

theorem isDigit_of_isAlpha {c : Char} (h : c.isAlpha = true) : c.isDigit = false := by
  have hletter : 'A'.toNat ≤ c.toNat := by
    rcases Bool.or_eq_true_iff.1 h with hupper | hlower
    · exact (of_decide_eq_true hupper).1
    · have ha : 'a'.toNat ≤ c.toNat := of_decide_eq_true (Bool.and_eq_true_iff.1 hlower).1
      exact Nat.le_trans (by decide) ha
  rw [Bool.eq_false_iff]
  intro hdigit
  have hnine : c.toNat ≤ '9'.toNat := (Char.isDigit_iff_toNat.1 hdigit).2
  exact absurd (Nat.le_trans hletter hnine) (by decide)

theorem isIdentifierChar_eq_true {c : Char} :
    isIdentifierChar c = true ↔ c.isAlphanum = true ∨ c = '_' := by
  simp [isIdentifierChar]

theorem isIdentifier_iff {text : String} :
    IsIdentifier text ↔ ∃ c rest, text.toList = c :: rest ∧ c.isDigit = false ∧
      ∀ d ∈ c :: rest, isIdentifierChar d = true := by
  simp only [isIdentifierChar_eq_true]
  constructor
  · rintro ⟨hne, hchars, hstart⟩
    obtain ⟨c, rest, hlist⟩ := List.exists_cons_of_ne_nil (mt String.toList_eq_nil_iff.1 hne)
    rw [hlist] at hchars hstart
    exact ⟨c, rest, hlist, hstart c rfl, hchars⟩
  · rintro ⟨c, rest, hlist, hstart, hchars⟩
    refine ⟨?_, hlist ▸ hchars, fun d hd => ?_⟩
    · rintro rfl
      cases hlist
    · rw [hlist] at hd
      cases hd
      exact hstart

/-! ## What escaping yields -/

theorem isIdentifierChar_of_mem_sanitizeChar {c d : Char} (h : d ∈ sanitizeChar c) :
    isIdentifierChar d = true := by
  unfold sanitizeChar at h
  split at h
  · next hc => rwa [List.mem_singleton.1 h]
  · simp only [List.mem_cons, List.mem_append, List.not_mem_nil, or_false] at h
    rcases h with rfl | hdigit | rfl
    · decide
    · have hd := Nat.isDigit_of_mem_toDigits (by decide) (by decide) hdigit
      simp [isIdentifierChar, Char.isAlphanum, hd]
    · decide

theorem identifierLead_cases (cs : List Char) :
    identifierLead cs = [] ∨ identifierLead cs = ['_'] := by
  cases cs with
  | nil => exact .inr rfl
  | cons c rest =>
    unfold identifierLead
    split <;> simp

theorem isIdentifierChar_of_mem_escapeIdentifier {cs : List Char} {d : Char}
    (h : d ∈ escapeIdentifier cs) : isIdentifierChar d = true := by
  rcases List.mem_append.1 h with hlead | hescaped
  · rcases identifierLead_cases cs with hcs | hcs <;> rw [hcs] at hlead
    · cases hlead
    · rw [List.mem_singleton.1 hlead]
      decide
  · obtain ⟨c, -, hd⟩ := List.mem_flatMap.1 hescaped
    exact isIdentifierChar_of_mem_sanitizeChar hd

/-- An escaped text begins with an underscore, unless it begins with a letter and this stands
for itself. -/
theorem escapeIdentifier_start (cs : List Char) :
    (∃ rest, escapeIdentifier cs = '_' :: rest) ∨
      ∃ c rest, cs = c :: rest ∧ c.isDigit = false ∧ isIdentifierChar c = true ∧
        escapeIdentifier cs = c :: rest.flatMap sanitizeChar := by
  cases cs with
  | nil => exact .inl ⟨[], rfl⟩
  | cons c rest =>
    by_cases hdigit : c.isDigit = true
    · exact .inl ⟨_, by rw [escapeIdentifier, identifierLead, if_pos hdigit, List.singleton_append]⟩
    · rw [escapeIdentifier, identifierLead, if_neg hdigit, List.nil_append, List.flatMap_cons,
        sanitizeChar]
      split
      · next hc => exact .inr ⟨c, rest, rfl, by simpa using hdigit, hc, rfl⟩
      · exact .inl ⟨_, rfl⟩

/-- An escaped text without underscores has not been changed. -/
theorem eq_of_underscore_not_mem {cs : List Char} (h : '_' ∉ escapeIdentifier cs) :
    escapeIdentifier cs = cs := by
  rcases escapeIdentifier_start cs with ⟨rest, hrest⟩ | ⟨c, rest, rfl, hdigit, hc, hescaped⟩
  · exact absurd (hrest ▸ List.mem_cons_self) h
  · refine escapeIdentifier_eq_self hdigit fun d hd => ?_
    by_cases hchar : isIdentifierChar d = true
    · exact hchar
    · have hmem : '_' ∈ sanitizeChar d := by simp [sanitizeChar, hchar]
      exact absurd (List.mem_append_right _ (List.mem_flatMap.2 ⟨d, hd, hmem⟩)) h

/-! ## Names are free identifiers -/

namespace Settings

variable {s : Settings}

/-- A reserved identifier between its marks begins with an underscore, and neither a digit
nor the end comes next. -/
theorem SetsApart.marked (h : s.SetsApart) {w : String} (hw : w ∈ s.reserved) :
    ∃ c rest, (s.reservedPrefix ++ w ++ s.reservedSuffix).toList = '_' :: c :: rest ∧
      c.isDigit = false := by
  obtain ⟨hword, hletters⟩ := h.words w hw
  obtain ⟨hbefore, hmarks⟩ := h.before
  rw [String.toList_append, String.toList_append, List.append_assoc]
  obtain ⟨c, marks, hbeginning⟩ := List.exists_cons_of_ne_nil (mt String.toList_eq_nil_iff.1 hbefore)
  obtain ⟨d, letters, hlist⟩ := List.exists_cons_of_ne_nil (mt String.toList_eq_nil_iff.1 hword)
  rw [hbeginning] at hmarks ⊢
  obtain rfl := hmarks c List.mem_cons_self
  cases marks with
  | nil =>
    refine ⟨d, letters ++ s.reservedSuffix.toList, by simp [hlist], ?_⟩
    exact isDigit_of_isAlpha (hletters d (hlist ▸ List.mem_cons_self))
  | cons e marks =>
    obtain rfl := hmarks e (by simp)
    exact ⟨'_', marks ++ (w.toList ++ s.reservedSuffix.toList), rfl, rfl⟩

theorem SetsApart.underscore_not_mem (h : s.SetsApart) {w : String} (hw : w ∈ s.reserved) :
    '_' ∉ w.toList := fun hmem => absurd ((h.words w hw).2 _ hmem) (by decide)

theorem sanitize_of_mem {candidate : String} (h : candidate ∈ s.reserved) :
    s.sanitize candidate = s.reservedPrefix ++ candidate ++ s.reservedSuffix := by
  rw [sanitize, isReserved, List.contains_iff_mem.2 h, if_pos rfl]

theorem toList_sanitize_of_not_mem {candidate : String} (h : candidate ∉ s.reserved) :
    (s.sanitize candidate).toList = escapeIdentifier candidate.toList := by
  rw [sanitize, isReserved, if_neg (by simpa using h), String.toList_ofList]

theorem SetsApart.isIdentifier_sanitize (h : s.SetsApart) (candidate : String) :
    IsIdentifier (s.sanitize candidate) := by
  rw [isIdentifier_iff]
  by_cases hmem : candidate ∈ s.reserved
  · obtain ⟨c, rest, hmarked, -⟩ := h.marked hmem
    refine ⟨'_', c :: rest, by rw [sanitize_of_mem hmem, hmarked], rfl, fun d hd => ?_⟩
    rw [← hmarked, String.toList_append, String.toList_append, List.mem_append,
      List.mem_append] at hd
    rw [isIdentifierChar_eq_true]
    rcases hd with (hd | hd) | hd
    · exact .inr (h.before.2 d hd)
    · exact .inl (by simp [Char.isAlphanum, (h.words _ hmem).2 d hd])
    · exact .inr (h.after.2 d hd)
  · rw [toList_sanitize_of_not_mem hmem]
    rcases escapeIdentifier_start candidate.toList with
      ⟨rest, hrest⟩ | ⟨c, rest, -, hdigit, -, hrest⟩
    · refine ⟨'_', rest, hrest, rfl, fun d hd => ?_⟩
      exact isIdentifierChar_of_mem_escapeIdentifier (hrest ▸ hd)
    · refine ⟨c, _, hrest, hdigit, fun d hd => ?_⟩
      exact isIdentifierChar_of_mem_escapeIdentifier (hrest ▸ hd)

theorem SetsApart.sanitize_not_mem (h : s.SetsApart) (candidate : String) :
    s.sanitize candidate ∉ s.reserved := by
  intro hreserved
  have hnone := h.underscore_not_mem hreserved
  by_cases hmem : candidate ∈ s.reserved
  · obtain ⟨c, rest, hmarked, -⟩ := h.marked hmem
    rw [sanitize_of_mem hmem, hmarked] at hnone
    exact hnone List.mem_cons_self
  · -- without an underscore, the candidate itself would be reserved
    have hlist := toList_sanitize_of_not_mem hmem
    rw [hlist] at hnone
    rw [eq_of_underscore_not_mem hnone, String.toList_inj] at hlist
    exact hmem (hlist ▸ hreserved)

/-- Exactly the identifiers that are not reserved are left as they are. -/
theorem SetsApart.sanitize_eq_self_iff (h : s.SetsApart) {candidate : String} :
    s.sanitize candidate = candidate ↔ IsIdentifier candidate ∧ candidate ∉ s.reserved := by
  constructor
  · intro hsame
    exact hsame ▸ ⟨h.isIdentifier_sanitize candidate, h.sanitize_not_mem candidate⟩
  · rintro ⟨hidentifier, hmem⟩
    obtain ⟨c, rest, hlist, hdigit, hchars⟩ := isIdentifier_iff.1 hidentifier
    rw [← String.toList_inj, toList_sanitize_of_not_mem hmem, hlist]
    exact escapeIdentifier_eq_self hdigit hchars

end Settings

/-- The name of every shape is an identifier and none of the reserved ones, if the settings
set the reserved identifiers apart, as the standard ones do.  It is what the shape is named
after, unchanged, exactly if this is an identifier that is not reserved. -/
theorem Namer.name_free_identifier : Settings.standard.SetsApart ∧
    ∀ n : Namer, n.settings.SetsApart → ∀ shape : Shape,
      IsIdentifier (n.name shape).sanitized ∧
      (n.name shape).sanitized ∉ n.settings.reserved ∧
      ((n.name shape).sanitized = n.candidate shape ↔
        IsIdentifier (n.candidate shape) ∧ n.candidate shape ∉ n.settings.reserved) :=
  ⟨Settings.standard_setsApart, fun n h shape =>
    ⟨h.isIdentifier_sanitize (n.candidate shape), h.sanitize_not_mem (n.candidate shape),
      h.sanitize_eq_self_iff⟩⟩

/-- One identifier is reserved, and marked by more than one underscore. -/
def Namer.wideMarks : Namer where
  prefixes := .empty
  settings :=
    { Settings.standard with reserved := ["in"], reservedPrefix := "__", reservedSuffix := "___" }

/-- Only its predicate is there to name the shape, and it begins with a digit. -/
def ninth : Shape where
  identifier := .blank "ninth"
  path := some (.predicate ⟨"9ñ"⟩)

theorem Namer.name_free_identifier_ninth : wideMarks.settings.SetsApart ∧
    (wideMarks.name ninth).sanitized = "_9_241_" ∧ IsIdentifier "_9_241_" ∧
    "_9_241_" ∉ wideMarks.settings.reserved := by
  have hsettings : wideMarks.settings.SetsApart :=
    ⟨by simp [wideMarks], by simp [wideMarks], by simp [wideMarks]⟩
  have hname : (wideMarks.name ninth).sanitized = "_9_241_" := by decide
  have hfree := name_free_identifier.2 wideMarks hsettings ninth
  rw [hname] at hfree
  exact ⟨hsettings, hname, hfree.1, hfree.2.1⟩

/-! ## Reading identifiers back -/

/-- The first character of a text, read off its escaped form. -/
def firstEscaped? : List Char → Option Char
  | [] => none
  | c :: rest =>
    if c = '_' then some (Char.ofNat (decimalValue (rest.takeWhile Char.isDigit))) else some c

theorem readsBack_sanitizeChar {c : Char} (hc : c ≠ '_') :
    ReadsBack firstEscaped? sanitizeChar c := by
  intro rest
  unfold sanitizeChar
  split
  · simp [firstEscaped?, hc]
  · have hdigits : ((Nat.toDigits 10 c.toNat ++ ['_']) ++ rest).takeWhile Char.isDigit =
        Nat.toDigits 10 c.toNat := by
      rw [List.append_assoc, List.takeWhile_append_of_pos fun d hd =>
        Nat.isDigit_of_mem_toDigits (by decide) (by decide) hd]
      simp
    rw [List.cons_append, firstEscaped?, if_pos rfl, hdigits, decimalValue_toDigits,
      Char.ofNat_toNat]

/-- Every escape brings two underscores. -/
theorem count_underscore_even {cs : List Char} (h : '_' ∉ cs) :
    (cs.flatMap sanitizeChar).count '_' % 2 = 0 := by
  induction cs with
  | nil => rfl
  | cons c rest ih =>
    obtain ⟨hc, hrest⟩ := not_or.1 (mt List.mem_cons.2 h)
    have hone : (sanitizeChar c).count '_' % 2 = 0 := by
      unfold sanitizeChar
      split
      · rw [List.count_singleton, if_neg (by simpa using Ne.symm hc)]
      · rw [List.count_cons_self, List.count_append,
          List.count_eq_zero.2 Nat.underscore_not_in_toDigits, List.count_singleton_self]
    rw [List.flatMap_cons, List.count_append, Nat.add_mod, hone, ih hrest]

/-- An odd number of underscores tells that there is one in front. -/
theorem identifierLead_eq {cs : List Char} (h : '_' ∉ cs) :
    identifierLead cs = if (escapeIdentifier cs).count '_' % 2 = 1 then ['_'] else [] := by
  have heven := count_underscore_even h
  rw [escapeIdentifier, List.count_append]
  rcases identifierLead_cases cs with hlead | hlead <;> rw [hlead]
  · rw [List.count_nil, if_neg (by omega)]
  · rw [List.count_singleton_self, if_pos (by omega)]

/-- Texts without underscores that are escaped alike are the same. -/
theorem escapeIdentifier_inj {cs ds : List Char} (hcs : '_' ∉ cs) (hds : '_' ∉ ds)
    (h : escapeIdentifier cs = escapeIdentifier ds) : cs = ds := by
  have hlead : identifierLead cs = identifierLead ds := by
    rw [identifierLead_eq hcs, identifierLead_eq hds, h]
  have hescaped : cs.flatMap sanitizeChar ++ [] = ds.flatMap sanitizeChar ++ [] := by
    rw [List.append_nil, List.append_nil]
    rwa [escapeIdentifier, escapeIdentifier, hlead, List.append_cancel_left_eq] at h
  have hreads : ∀ es : List Char, '_' ∉ es →
      ∀ e ∈ es, ReadsBack firstEscaped? sanitizeChar e := fun es hes e he =>
    readsBack_sanitizeChar fun heq => hes (heq ▸ he)
  exact (flatMap_append_inj (hreads cs hcs) (hreads ds hds) rfl rfl hescaped).1

/-- A text with underscores can look like an escaped one. -/
example : escapeIdentifier ['_', '4', '5', '_'] = escapeIdentifier ['-'] := by decide

/-- Where the escaped form of a text without underscores begins with one, a digit follows. -/
theorem isDigit_of_escapeIdentifier_eq {cs rest : List Char} {c : Char} (hcs : '_' ∉ cs)
    (h : escapeIdentifier cs = '_' :: c :: rest) : c.isDigit = true := by
  cases cs with
  | nil => cases h
  | cons d ds =>
    by_cases hdigit : d.isDigit = true
    · have hself : sanitizeChar d = [d] :=
        if_pos (by simp [isIdentifierChar, Char.isAlphanum, hdigit])
      rw [escapeIdentifier, identifierLead, if_pos hdigit, List.flatMap_cons, hself] at h
      cases h
      exact hdigit
    · rw [escapeIdentifier, identifierLead, if_neg hdigit, List.nil_append, List.flatMap_cons,
        sanitizeChar] at h
      split at h
      · obtain rfl : d = '_' := (List.cons.inj h).1
        exact absurd List.mem_cons_self hcs
      · obtain ⟨e, digits, hdigits⟩ := List.exists_cons_of_ne_nil
          (Nat.toDigits_ne_nil (n := d.toNat) (b := 10))
        have he : e ∈ Nat.toDigits 10 d.toNat := hdigits ▸ List.mem_cons_self
        rw [hdigits] at h
        cases h
        exact Nat.isDigit_of_mem_toDigits (by decide) (by decide) he

namespace Settings

variable {s : Settings}

/-- A reserved identifier between its marks is not the identifier of another text. -/
theorem SetsApart.sanitize_ne (h : s.SetsApart) {w text : String} (hw : w ∈ s.reserved)
    (htext : text ∉ s.reserved) (hplain : '_' ∉ text.toList) : s.sanitize w ≠ s.sanitize text := by
  intro hsame
  obtain ⟨c, rest, hmarked, hdigit⟩ := h.marked hw
  rw [← sanitize_of_mem hw, hsame, toList_sanitize_of_not_mem htext] at hmarked
  rw [isDigit_of_escapeIdentifier_eq hplain hmarked] at hdigit
  cases hdigit

theorem SetsApart.sanitize_inj (h : s.SetsApart) {a b : String} (ha : '_' ∉ a.toList)
    (hb : '_' ∉ b.toList) (hsame : s.sanitize a = s.sanitize b) : a = b := by
  by_cases hra : a ∈ s.reserved <;> by_cases hrb : b ∈ s.reserved
  · rw [sanitize_of_mem hra, sanitize_of_mem hrb, String.append_left_inj,
      String.append_right_inj] at hsame
    exact hsame
  · exact absurd hsame (h.sanitize_ne hra hrb hb)
  · exact absurd hsame.symm (h.sanitize_ne hrb hra ha)
  · have hlist := congrArg String.toList hsame
    rw [toList_sanitize_of_not_mem hra, toList_sanitize_of_not_mem hrb] at hlist
    exact String.toList_inj.1 (escapeIdentifier_inj ha hb hlist)

/-- With the standard settings, distinct texts without underscores have distinct identifiers. -/
theorem sanitize_keeps_apart {a b : String} (ha : '_' ∉ a.toList) (hb : '_' ∉ b.toList)
    (hne : a ≠ b) : standard.sanitize a ≠ standard.sanitize b :=
  fun hsame => hne (standard_setsApart.sanitize_inj ha hb hsame)

/-- The identifiers are `_45_45` and `_45_45_`. -/
theorem sanitize_keeps_apart_dashes : '_' ∉ "-45".toList ∧ '_' ∉ "45-".toList ∧ "-45" ≠ "45-" ∧
    standard.sanitize "-45" ≠ standard.sanitize "45-" :=
  ⟨by decide, by decide, by decide, sanitize_keeps_apart (by decide) (by decide) (by decide)⟩

end Settings

end ShaclTypes
