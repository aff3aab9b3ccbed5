import TextPager.Text.Unprintable

/-!
# Quoted text

A message shows a text it was given between double quotes, so that its ends and its invisible
characters can be seen. A quote and a backslash get a backslash before them; tab, newline,
carriage return and the null character are `\t`, `\n`, `\r` and `\0`; every other character that
does not print on its own is its number in hexadecimal between braces after `\u`.

**Results.**
* `Text.quoted_ends`: a quoted text begins and ends with a quote.
* `quoteChar_ne_quote`: inside, no character is written as a lone quote.
-/
namespace TextPager

/-- How a character is written inside quotes. -/
def quoteChar (c : Char) : Text :=
  if c = '"' ∨ c = '\\' then ['\\', c]
  else if c = '\t' then ['\\', 't']
  else if c = '\n' then ['\\', 'n']
  else if c = '\r' then ['\\', 'r']
  else if c = '\x00' then ['\\', '0']
  else if printsAlone c then [c]
  else "\\u\x7b".toList ++ Nat.toDigits 16 c.toNat ++ ['}']

/-- A text between quotes. -/
def Text.quoted (t : Text) : Text := ['"'] ++ t.flatMap quoteChar ++ ['"']

theorem Text.quoted_ends (t : Text) :
    t.quoted.head? = some '"' ∧ t.quoted.getLast? = some '"' := by
  refine ⟨rfl, ?_⟩
  rw [Text.quoted, List.getLast?_append]
  rfl

/-- Inside the quotes no character is written as a lone quote. -/
theorem quoteChar_ne_quote (c : Char) : quoteChar c ≠ ['"'] := by
  unfold quoteChar
  split
  · simp
  · rename_i h
    repeat' split
    all_goals simp_all

end TextPager
