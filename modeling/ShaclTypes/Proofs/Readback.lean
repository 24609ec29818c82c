import ShaclTypes.Json.Token
import ShaclTypes.Text.Digits
set_option autoImplicit false

/-!
# Reading texts back

A text that is written character by character can be read back if the first character can
always be told, whatever is written after it.  Then the text is determined together with
all that follows it, provided that what follows does not read as one more character
(`flatMap_append_inj`).  Numbers in decimal and in hexadecimal digits are read back by their
values.
-/

namespace ShaclTypes.Text

/-! ## Character by character -/

section

variable {first? : List Char → Option Char} {written : Char → List Char}

/-- A character that is read off its written form, whatever follows. -/
def ReadsBack (first? : List Char → Option Char) (written : Char → List Char) (c : Char) : Prop :=
  ∀ rest, first? (written c ++ rest) = some c

theorem ReadsBack.flatMap_cons {c : Char} (h : ReadsBack first? written c) (cs rest : List Char) :
    first? ((c :: cs).flatMap written ++ rest) = some c := by
  rw [List.flatMap_cons, List.append_assoc]
  exact h _

/-- Two texts with something after them that are written alike are the same text, and the
same comes after them. -/
theorem flatMap_append_inj {cs ds rest rest' : List Char}
    (hcs : ∀ c ∈ cs, ReadsBack first? written c) (hds : ∀ d ∈ ds, ReadsBack first? written d)
    (hrest : first? rest = none) (hrest' : first? rest' = none)
    (h : cs.flatMap written ++ rest = ds.flatMap written ++ rest') : cs = ds ∧ rest = rest' := by
  induction cs generalizing ds with
  | nil =>
    cases ds with
    | nil => exact ⟨rfl, h⟩
    | cons d ds =>
      -- what follows the first text would read as `d`
      have hd := (hds d List.mem_cons_self).flatMap_cons ds rest'
      rw [← h, List.flatMap_nil, List.nil_append, hrest] at hd
      cases hd
  | cons c cs ih =>
    have hc := (hcs c List.mem_cons_self).flatMap_cons cs rest
    rw [h] at hc
    cases ds with
    | nil =>
      rw [List.flatMap_nil, List.nil_append, hrest'] at hc
      cases hc
    | cons d ds =>
      rw [(hds d List.mem_cons_self).flatMap_cons ds rest'] at hc
      obtain rfl := Option.some.inj hc
      simp only [List.flatMap_cons, List.append_assoc, List.append_cancel_left_eq] at h
      obtain ⟨rfl, hsame⟩ := ih (fun c hc => hcs c (List.mem_cons_of_mem _ hc))
        (fun d hd => hds d (List.mem_cons_of_mem _ hd)) h
      exact ⟨rfl, hsame⟩

end

/-! ## Numbers -/

theorem decimalValue_toDigits (n : Nat) : decimalValue (Nat.toDigits 10 n) = n :=
  Nat.ofDigitChars_ten_toDigits

/-- The value of hexadecimal digits, most significant first. -/
def hexValue (digits : List Char) : Nat :=
  digits.foldl (fun n c => 16 * n + (Json.hexDigit? c).getD 0) 0

theorem hexDigit?_digitChar : ∀ d < 16, Json.hexDigit? (Nat.digitChar d) = some d := by decide

theorem hexValue_append_singleton (digits : List Char) (c : Char) :
    hexValue (digits ++ [c]) = 16 * hexValue digits + (Json.hexDigit? c).getD 0 := by
  simp [hexValue]

theorem hexValue_toDigits (n : Nat) : hexValue (Nat.toDigits 16 n) = n := by
  induction n using Nat.strongRecOn with
  | ind n ih =>
    rw [Nat.toDigits_eq_if (by decide)]
    split
    · next hsmall => simp [hexValue, hexDigit?_digitChar n hsmall]
    · next hlarge =>
      rw [hexValue_append_singleton, ih (n / 16) (by omega),
        hexDigit?_digitChar _ (Nat.mod_lt n (by decide)), Option.getD_some, Nat.div_add_mod]

/-- Hexadecimal digits are digits in the sense of `hexDigit?`. -/
theorem hexDigit?_of_mem_toDigits {n : Nat} {c : Char} (h : c ∈ Nat.toDigits 16 n) :
    (Json.hexDigit? c).isSome = true := by
  induction n using Nat.strongRecOn with
  | ind n ih =>
    rw [Nat.toDigits_eq_if (by decide)] at h
    split at h
    · next hsmall =>
      rw [List.mem_singleton.1 h, hexDigit?_digitChar n hsmall, Option.isSome_some]
    · rcases List.mem_append.1 h with h | h
      · exact ih (n / 16) (by omega) h
      · rw [List.mem_singleton.1 h, hexDigit?_digitChar _ (Nat.mod_lt n (by decide)),
          Option.isSome_some]

end ShaclTypes.Text
