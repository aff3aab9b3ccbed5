import Mathlib.Data.List.Induction
import Mathlib.Data.Nat.Digits.Defs
import TextPager.Proofs.Text.Words
import TextPager.Text.Number

/-!
# Numerals

A numeral is a plus sign or none, then one or more decimal digits, the most significant first. A text
`Names` a number if it is a numeral of it with white space before and after. Reading a text trims
the white space, looks at every character and adds up the digits; it finds the number that the text
names, unless that number is too large, and nothing in any other text.

**Results.**
* `trim_append`: trimming leaves what stands between two blanks.
* `number?_eq_some_iff`: a number is read from its numerals, if it is below the limit.
* `number?_trim_eq_some_iff`: after trimming, from every text that names it.
-/
namespace TextPager.Text

/-! ## Trimming -/

theorem trimStart_append {before t : Text} (hb : before.isBlank = true)
    (ht : ∀ c ∈ t.head?, isSpace c = false) : trimStart (before ++ t) = t := by
  have hstop : t.dropWhile isSpace = t := by
    cases t with
    | nil => rfl
    | cons c t => rw [List.dropWhile_cons, if_neg (by simp [ht c rfl])]
  rw [trimStart, List.dropWhile_append_of_pos (List.all_eq_true.1 hb), hstop]

theorem trimEnd_append {t after : Text} (ha : after.isBlank = true)
    (ht : ∀ c ∈ t.getLast?, isSpace c = false) : trimEnd (t ++ after) = t := by
  have hrev : trimStart (after.reverse ++ t.reverse) = t.reverse :=
    trimStart_append (by simpa [isBlank] using ha) (by simpa using ht)
  calc trimEnd (t ++ after) = (trimStart (after.reverse ++ t.reverse)).reverse := by
        rw [← List.reverse_append]
        rfl
    _ = t := by rw [hrev, List.reverse_reverse]

/-- Trimming leaves what stands between two blanks. -/
theorem trim_append {before t after : Text} (hb : before.isBlank = true)
    (ha : after.isBlank = true) (hne : t ≠ []) (ht : ∀ c ∈ t, isSpace c = false) :
    trim (before ++ t ++ after) = t := by
  have hhead : ∀ c ∈ (t ++ after).head?, isSpace c = false := by
    obtain ⟨c, s, rfl⟩ := List.exists_cons_of_ne_nil hne
    rintro d ⟨rfl⟩
    exact ht c List.mem_cons_self
  rw [trim, List.append_assoc, trimStart_append hb hhead]
  exact trimEnd_append ha fun c hc => ht c (List.mem_of_getLast? hc)

/-- What trimming takes away is blank. -/
theorem exists_append_of_trim (t : Text) :
    ∃ before after, t = before ++ t.trim ++ after ∧ before.isBlank = true ∧
      after.isBlank = true := by
  obtain ⟨after, heq, hafter⟩ := exists_append_of_dropEndWhile isSpace t.trimStart
  refine ⟨t.takeWhile isSpace, after, ?_, List.all_takeWhile, List.all_eq_true.2 hafter⟩
  calc t = t.takeWhile isSpace ++ t.trimStart := List.takeWhile_append_dropWhile.symm
    _ = t.takeWhile isSpace ++ (t.trim ++ after) := by
        rw [heq]
        rfl
    _ = t.takeWhile isSpace ++ t.trim ++ after := (List.append_assoc ..).symm

/-! ## Numerals -/

/-- The value of a digit. -/
def digitValue (c : Char) : Nat := c.toNat - '0'.toNat

/-- The text is a numeral of the number: a plus sign or none, then decimal digits. -/
def IsNumeralOf (t : Text) (n : Nat) : Prop :=
  ∃ sign ds, t = sign ++ ds ∧ (sign = [] ∨ sign = ['+']) ∧ ds ≠ [] ∧
    (∀ d ∈ ds, d.isDigit = true) ∧ Nat.ofDigits 10 (ds.reverse.map digitValue) = n

/-- The text is a numeral of the number, with white space before and after. -/
def Names (t : Text) (n : Nat) : Prop :=
  ∃ before numeral after, t = before ++ numeral ++ after ∧ before.isBlank = true ∧
    after.isBlank = true ∧ numeral.IsNumeralOf n

/-- Digits are added up from the most significant one on. -/
theorem digitsValue_eq (ds : Text) :
    ds.digitsValue = Nat.ofDigits 10 (ds.reverse.map digitValue) := by
  induction ds using List.reverseRecOn with
  | nil => rfl
  | append_singleton ds d ih =>
    rw [List.reverse_append, List.reverse_singleton, List.singleton_append, List.map_cons,
      Nat.ofDigits_cons, ← ih, Nat.add_comm]
    simp only [digitsValue, List.foldl_append, List.foldl_cons, List.foldl_nil, digitValue]

/-- A digit is no sign. -/
theorem dropPlus_of_digits {ds : Text} (h : ∀ d ∈ ds, d.isDigit = true) : ds.dropPlus = ds := by
  unfold dropPlus
  split
  · exact absurd (h '+' List.mem_cons_self) (by decide)
  · rfl

theorem exists_sign_append (t : Text) :
    ∃ sign, t = sign ++ t.dropPlus ∧ (sign = [] ∨ sign = ['+']) := by
  unfold dropPlus
  split
  · exact ⟨['+'], rfl, .inr rfl⟩
  · exact ⟨[], rfl, .inl rfl⟩

/-- A numeral without its sign is its digits. -/
theorem isNumeralOf_iff {t : Text} {n : Nat} :
    t.IsNumeralOf n ↔ t.isNumeral = true ∧ t.dropPlus.digitsValue = n := by
  simp only [isNumeral, Bool.and_eq_true, Bool.not_eq_true', List.isEmpty_eq_false_iff,
    List.all_eq_true]
  constructor
  · rintro ⟨sign, ds, rfl, hsign, hne, hdigits, hvalue⟩
    have hdrop : (sign ++ ds).dropPlus = ds := by
      rcases hsign with rfl | rfl
      · exact dropPlus_of_digits hdigits
      · rfl
    rw [hdrop, digitsValue_eq]
    exact ⟨⟨hne, hdigits⟩, hvalue⟩
  · rintro ⟨⟨hne, hdigits⟩, hvalue⟩
    obtain ⟨sign, ht, hsign⟩ := exists_sign_append t
    exact ⟨sign, t.dropPlus, ht, hsign, hne, hdigits, digitsValue_eq t.dropPlus ▸ hvalue⟩

/-- A number is read from its numerals, if it is below the limit. -/
theorem number?_eq_some_iff {t : Text} {n : Nat} :
    t.number? = some n ↔ t.IsNumeralOf n ∧ n < wordLimit := by
  simp only [isNumeralOf_iff, number?, Option.ite_none_right_eq_some, Option.some.injEq]
  constructor
  · rintro ⟨⟨hform, hlt⟩, rfl⟩
    exact ⟨⟨hform, rfl⟩, hlt⟩
  · rintro ⟨⟨hform, rfl⟩, hlt⟩
    exact ⟨⟨hform, hlt⟩, rfl⟩

/-- There is something to a numeral, but no white space. -/
theorem IsNumeralOf.not_isSpace {t : Text} {n : Nat} (h : t.IsNumeralOf n) :
    t ≠ [] ∧ ∀ c ∈ t, isSpace c = false := by
  have hdigit : ∀ d : Char, d.isDigit = true → isSpace d = false := fun d hd => by
    simp only [Char.isDigit, Bool.and_eq_true, decide_eq_true_eq, UInt32.le_iff_toNat_le] at hd
    have hlow : 48 ≤ d.toNat := hd.1
    have hhigh : d.toNat ≤ 57 := hd.2
    simp only [isSpace, Bool.or_eq_false_iff, Bool.and_eq_false_iff, beq_eq_false_iff_ne,
      decide_eq_false_iff_not]
    omega
  obtain ⟨sign, ds, rfl, hsign, hne, hdigits, -⟩ := h
  refine ⟨by simp [hne], fun c hc => ?_⟩
  rcases List.mem_append.1 hc with hc | hc
  · rcases hsign with rfl | rfl
    · cases hc
    · rw [List.mem_singleton.1 hc]
      decide
  · exact hdigit c (hdigits c hc)

/-- After trimming, a number is read from every text that names it, if it is below the limit. -/
theorem number?_trim_eq_some_iff {t : Text} {n : Nat} :
    t.trim.number? = some n ↔ t.Names n ∧ n < wordLimit := by
  rw [number?_eq_some_iff]
  constructor
  · rintro ⟨hform, hlt⟩
    obtain ⟨before, after, ht, hb, ha⟩ := exists_append_of_trim t
    exact ⟨⟨before, t.trim, after, ht, hb, ha, hform⟩, hlt⟩
  · rintro ⟨⟨before, numeral, after, rfl, hb, ha, hform⟩, hlt⟩
    obtain ⟨hne, hspace⟩ := hform.not_isSpace
    rw [trim_append hb ha hne hspace]
    exact ⟨hform, hlt⟩

end TextPager.Text
