import TextPager.Text.Basic

/-!
# Whole numbers in text

Counts, page numbers and indents are read in one form: an optional plus sign and one or more
decimal digits, of a value below `wordLimit`. They are written in decimal.

**Results.**
* `Text.number?_lt`: a number that is read is below the limit.
* `Text.number?_eq_none_of_not_digit`: no other character may stand in a number.
-/
namespace TextPager

/-- Every count and every indent is below this number. -/
def wordLimit : Nat := Nat.pow 2 64

namespace Text

/-- The value of decimal digits. -/
def digitsValue (ds : Text) : Nat := ds.foldl (fun n c => 10 * n + (c.toNat - '0'.toNat)) 0

/-- The digits of a number, without the sign a number may begin with. -/
def dropPlus : Text → Text
  | '+' :: t => t
  | t => t

/-- The text has the form of a number, of whatever value. -/
def isNumeral (t : Text) : Bool := !t.dropPlus.isEmpty && t.dropPlus.all Char.isDigit

/-- The number a text stands for, if it is below the limit. -/
def number? (t : Text) : Option Nat :=
  if t.isNumeral ∧ t.dropPlus.digitsValue < wordLimit then some t.dropPlus.digitsValue else none

/-- The decimal digits of a number. -/
def ofNat (n : Nat) : Text := Nat.toDigits 10 n

theorem number?_lt {t : Text} {n : Nat} (h : t.number? = some n) : n < wordLimit := by
  simp only [number?] at h
  split at h
  · rename_i hc
    cases h
    exact hc.2
  · cases h

theorem number?_eq_none_of_not_digit {t : Text} {c : Char} (hc : c ∈ t) (hd : c.isDigit = false)
    (hp : c ≠ '+') : t.number? = none := by
  have hmem : c ∈ t.dropPlus := by
    unfold dropPlus
    split
    · rcases List.mem_cons.1 hc with h | h
      · exact absurd h hp
      · exact h
    · exact hc
  have hn : t.isNumeral = false := by
    have hall : t.dropPlus.all Char.isDigit = false := by
      rw [List.all_eq_false]
      exact ⟨c, hmem, by simp [hd]⟩
    simp [isNumeral, hall]
  simp [number?, hn]

end Text

end TextPager
