import TextPager.Viewer.Span

/-!
# Screens

A screen is rows of cells. Text is printed from a cell to the right, at most so many characters,
never past the right edge; control characters are left out. Printing on a cell replaces its
character. How many cells a character takes is for the terminal to say: `CellWidths`. Glyphs are
one cell each.

**Results.**
* `Row.length_print`: printing keeps the length of a row.
* `Row.getElem?_print`: a cell of a printed row is printed on or as it was.
-/
namespace TextPager

/-- A character and how it is shown. -/
structure Cell where
  char : Char
  modifiers : Modifiers
  deriving DecidableEq, Repr

namespace Cell

def blank : Cell := ⟨' ', .none⟩

/-- The cell with a character of some style printed on it. -/
def print (cell : Cell) (c : Char) (s : Style) : Cell := ⟨c, s.onto cell.modifiers⟩

end Cell

/-- A character in a style. -/
abbrev Glyph := Char × Style

abbrev Row := List Cell

namespace Row

/-- Glyphs printed from the left, as far as the row goes. -/
def printStart : Row → List Glyph → Row
  | cell :: row, g :: gs => cell.print g.1 g.2 :: printStart row gs
  | row, _ => row

/-- Glyphs printed from a column on. -/
def print (row : Row) (column : Nat) (gs : List Glyph) : Row :=
  row.take column ++ printStart (row.drop column) gs

theorem length_printStart (row : Row) (gs : List Glyph) :
    (printStart row gs).length = row.length := by
  fun_induction printStart row gs <;> simp_all

/-- Printing keeps the length of a row. -/
theorem length_print (row : Row) (column : Nat) (gs : List Glyph) :
    (row.print column gs).length = row.length := by
  simp only [print, List.length_append, List.length_take, length_printStart, List.length_drop]
  omega

theorem getElem?_printStart (row : Row) (gs : List Glyph) (i : Nat) :
    (printStart row gs)[i]? =
      match gs[i]? with
      | some g => row[i]?.map fun cell => cell.print g.1 g.2
      | none => row[i]? := by
  fun_induction printStart row gs generalizing i with
  | case1 cell row g gs ih => cases i <;> simp [ih]
  | case2 row gs hne =>
    cases row with
    | nil => cases gs[i]? <;> simp
    | cons cell row =>
      cases gs with
      | nil => simp
      | cons g gs => exact absurd rfl (hne cell row g gs rfl)

/-- A cell of a printed row is printed on, or as it was. -/
theorem getElem?_print (row : Row) (column : Nat) (gs : List Glyph) (i : Nat) :
    (row.print column gs)[i]? =
      if i < column then row[i]?
      else match gs[i - column]? with
        | some g => row[i]?.map fun cell => cell.print g.1 g.2
        | none => row[i]? := by
  have hlen := length_print row column gs
  by_cases hi : i < row.length
  · unfold print
    split
    · rename_i h
      rw [List.getElem?_append_left (by rw [List.length_take]; omega), List.getElem?_take, if_pos h]
    · rename_i h
      rw [List.getElem?_append_right (by rw [List.length_take]; omega), List.length_take,
        Nat.min_eq_left (by omega), getElem?_printStart, List.getElem?_drop,
        Nat.add_sub_cancel' (Nat.le_of_not_lt h)]
  · rw [List.getElem?_eq_none (by omega), List.getElem?_eq_none (by omega)]
    split
    · rfl
    · cases gs[i - column]? <;> rfl

end Row

/-- How many columns each character takes. That a printable ASCII character takes one is all that is
known of every terminal. -/
structure CellWidths where
  columns : Char → Nat
  columns_ascii : ∀ c, 0x20 ≤ c.toNat → c.toNat ≤ 0x7E → columns c = 1

/-- The characters of a text that are printed, at most so many, in one style. Every character but
the control characters, which are left out, is taken to be one column wide. -/
def glyphs (t : Text) (limit : Nat) (s : Style) : List Glyph :=
  ((t.filter fun c => !isControl c).take limit).map fun c => (c, s)

abbrev Screen := List Row

namespace Screen

def blank (rows columns : Nat) : Screen := List.replicate rows (List.replicate columns Cell.blank)

/-- Glyphs printed in a row from a column on. -/
def print (screen : Screen) (row column : Nat) (gs : List Glyph) : Screen :=
  screen.modify row fun r => r.print column gs

/-- Cells of a row from a column on, so many of them, made blank. -/
def erase (screen : Screen) (row column : Nat) : Nat → Screen
  | 0 => screen
  | n + 1 => erase (screen.modify row fun r => r.set column .blank) row (column + 1) n

/-- A cell of the screen. -/
def cell? (screen : Screen) (row column : Nat) : Option Cell :=
  screen[row]?.bind fun r => r[column]?

theorem cell?_print (screen : Screen) (row column : Nat) (gs : List Glyph) (y x : Nat) :
    (screen.print row column gs).cell? y x =
      if y = row ∧ column ≤ x then
        match gs[x - column]? with
        | some g => (screen.cell? y x).map fun cell => cell.print g.1 g.2
        | none => screen.cell? y x
      else screen.cell? y x := by
  simp only [cell?, print, List.getElem?_modify]
  by_cases hy : y = row
  · subst hy
    cases hs : screen[y]? with
    | none => cases gs[x - column]? <;> simp
    | some r =>
      by_cases hx : column ≤ x
      · simp [Row.getElem?_print, hx, Nat.not_lt.2 hx]
      · simp [Row.getElem?_print, hx, Nat.lt_of_not_le hx]
  · simp [hy, Ne.symm hy]

end Screen

end TextPager
