import TextPager.Viewer.Drawing

/-!
# Which cells drawing touches

Every part of the screen is drawn in an area of its own: the frame on the border, title and status
on the top line between the corners, commands, prompt and message on the bottom line, the page
inside. A drawing step `ChangesOnly` its area if every cell outside is as it was before; the steps
of a drawing then compose, and a cell is decided by the one step whose area it lies in.

**Results.**
* `ChangesOnly.trans`, `ChangesOnly.foldl`: drawing one thing after the other.
* `getElem?_text`: the characters of a stretch of a row.
* `printText_reaches`, `cell?_printText`: what printing touches, and what it leaves there.
* `cell?_drawLines`, `drawLines_changesOnly`: the same for the lines of a page.
-/
namespace TextPager

/-- No character of the text is left out when it is printed. -/
def Text.Visible (t : Text) : Prop := ∀ c ∈ t, isControl c = false

instance (t : Text) : Decidable t.Visible :=
  decidable_of_iff (t.all fun c => !isControl c) (by simp [Text.Visible])

theorem Text.Visible.append {a b : Text} (ha : a.Visible) (hb : b.Visible) :
    Text.Visible (a ++ b) :=
  List.forall_mem_append.2 ⟨ha, hb⟩

namespace Screen

/-! ## Areas -/

/-- The screens agree in every cell outside an area. -/
def ChangesOnly (area : Nat → Nat → Prop) (before after : Screen) : Prop :=
  ∀ y x, ¬area y x → after.cell? y x = before.cell? y x

/-- The columns of a row from one up to another. -/
def strip (row left right y x : Nat) : Prop := y = row ∧ left ≤ x ∧ x < right

/-- The outermost rows and columns of a screen. -/
def border (rows columns y x : Nat) : Prop := y = 0 ∨ y + 1 = rows ∨ x = 0 ∨ x + 1 = columns

namespace ChangesOnly

variable {area area' : Nat → Nat → Prop} {s t u : Screen}

theorem refl (s : Screen) : ChangesOnly area s s := fun _ _ _ => rfl

theorem trans (h : ChangesOnly area s t) (h' : ChangesOnly area t u) : ChangesOnly area s u :=
  fun y x hout => (h' y x hout).trans (h y x hout)

theorem mono (h : ChangesOnly area s t) (hsub : ∀ y x, area y x → area' y x) :
    ChangesOnly area' s t :=
  fun y x hout => h y x fun hin => hout (hsub y x hin)

/-- Steps that all stay in an area stay in it together. -/
theorem foldl {α : Type} {draw : Screen → α → Screen} {l : List α}
    (h : ∀ a ∈ l, ∀ s, ChangesOnly area s (draw s a)) (s : Screen) :
    ChangesOnly area s (l.foldl draw s) := by
  induction l generalizing s with
  | nil => exact refl s
  | cons a l ih =>
    exact (h a List.mem_cons_self s).trans (ih (fun b hb => h b (List.mem_cons_of_mem a hb)) _)

end ChangesOnly

/-! ## Characters of a screen -/

/-- The character in a cell. -/
def char? (s : Screen) (y x : Nat) : Option Char := (s.cell? y x).map Cell.char

/-- The characters of a row in the columns from one up to another. -/
def text (s : Screen) (row left right : Nat) : Text :=
  (((s.getD row []).take right).drop left).map Cell.char

theorem getElem?_text (s : Screen) (row left right i : Nat) :
    (s.text row left right)[i]? = if left + i < right then s.char? row (left + i) else none := by
  rw [text, List.getElem?_map, List.getElem?_drop, List.getElem?_take, char?, cell?,
    List.getD_eq_getElem?_getD]
  cases s[row]? <;> split <;> simp

/-- A stretch of a row from its characters. -/
theorem text_eq {s : Screen} {row left right : Nat} {t : Text} (hlen : left + t.length = right)
    (h : ∀ i c, t[i]? = some c → s.char? row (left + i) = some c) : s.text row left right = t := by
  refine List.ext_getElem? fun i => ?_
  rw [getElem?_text]
  by_cases hi : i < t.length
  · rw [if_pos (by omega), h i t[i] (List.getElem?_eq_getElem hi), List.getElem?_eq_getElem hi]
  · rw [if_neg (by omega), List.getElem?_eq_none (by omega)]

theorem cell?_blank {rows columns y x : Nat} (hy : y < rows) (hx : x < columns) :
    (blank rows columns).cell? y x = some .blank := by
  simp [cell?, blank, hy, hx]

/-- Printing touches only the cells under its glyphs. -/
theorem print_changesOnly (s : Screen) (row column : Nat) (gs : List Glyph) :
    ChangesOnly (strip row column (column + gs.length)) s (s.print row column gs) := by
  intro y x hout
  rw [cell?_print]
  split
  · rename_i h
    rw [List.getElem?_eq_none (by simp only [strip] at hout; omega)]
  · rfl

end Screen

open Screen (ChangesOnly strip border)

/-! ## Printing text -/

theorem length_glyphs_le (t : Text) (limit : Nat) (style : Style) :
    (glyphs t limit style).length ≤ min limit t.length := by
  have hfilter : (t.filter fun c => !isControl c).length ≤ t.length := List.length_filter_le ..
  rw [glyphs, List.length_map, List.length_take]
  omega

theorem glyphs_of_visible {t : Text} (hv : t.Visible) (limit : Nat) (style : Style) :
    glyphs t limit style = (t.take limit).map fun c => (c, style) := by
  have hall : (t.filter fun c => !isControl c) = t :=
    List.filter_eq_self.2 fun c hc => by simp [hv c hc]
  rw [glyphs, hall]

namespace Viewer

/-- Something was drawn in a row from a column on, and ends before the column that comes with the
screen; it stays left of a limit unless it is empty. -/
structure Reaches (row column limit : Nat) (before : Screen) (after : Screen × Nat) : Prop where
  changes : ChangesOnly (strip row column after.2) before after.1
  le : column ≤ after.2
  fits : after.2 ≤ max column limit

namespace Reaches

variable {row column limit : Nat} {s : Screen} {t u : Screen × Nat}

theorem refl (s : Screen) : Reaches row column limit s (s, column) :=
  ⟨.refl s, Nat.le_refl column, Nat.le_max_left column limit⟩

theorem trans (h : Reaches row column limit s t) (h' : Reaches row t.2 limit t.1 u) :
    Reaches row column limit s u where
  changes :=
    (h.changes.mono fun y x hin => ⟨hin.1, hin.2.1, Nat.lt_of_lt_of_le hin.2.2 h'.le⟩).trans
      (h'.changes.mono fun y x hin => ⟨hin.1, Nat.le_trans h.le hin.2.1, hin.2.2⟩)
  le := Nat.le_trans h.le h'.le
  fits := by
    have h1 := h.fits
    have h2 := h'.fits
    omega

/-- No cell from the limit on is touched. -/
theorem inside (h : Reaches row column limit s t) : ChangesOnly (strip row column limit) s t.1 :=
  h.changes.mono fun y x hin => ⟨hin.1, hin.2.1, by
    have h1 := h.fits
    have h2 := hin.2
    omega⟩

end Reaches

/-- Printed text ends with its last character, at its limit or at the right edge. -/
theorem printText_reaches {columns row column limit right : Nat} {t : Text}
    (h : column + min t.length (min limit (columns - column)) ≤ max column right) (style : Style)
    (screen : Screen) :
    Reaches row column right screen (printText columns row column limit t style screen) where
  changes := screen.print_changesOnly row column _
  le := Nat.le_add_right _ _
  fits := by
    have h := length_glyphs_le t (min limit (columns - column)) style
    simp only [printText]
    omega

/-- Text that is visible stands in its cells character by character, as far as there is room. -/
theorem cell?_printText {columns row column limit i : Nat} {t : Text} (hv : t.Visible)
    (hl : i < limit) (hc : column + i < columns) (style : Style) {screen : Screen} {c : Char}
    {cell : Cell} (ht : t[i]? = some c) (hcell : screen.cell? row (column + i) = some cell) :
    (printText columns row column limit t style screen).1.cell? row (column + i) =
      some (cell.print c style) := by
  have hroom : i < min limit (columns - column) := by omega
  rw [printText, Screen.cell?_print, if_pos ⟨rfl, Nat.le_add_right _ _⟩, Nat.add_sub_cancel_left,
    glyphs_of_visible hv, List.getElem?_map, List.getElem?_take, if_pos hroom, ht, hcell]
  rfl

/-- The column after visible text. -/
theorem printText_end {t : Text} (hv : t.Visible) (columns row column limit : Nat) (style : Style)
    (screen : Screen) :
    (printText columns row column limit t style screen).2 =
      column + min (min limit (columns - column)) t.length := by
  rw [printText, glyphs_of_visible hv, List.length_map, List.length_take]

/-! ## Page lines -/

/-- A cell after page lines are drawn: the glyph of its line that falls on it, if there is one. -/
theorem cell?_drawLines (columns : Nat) (ls : List (List Span)) (row : Nat) (screen : Screen)
    (y x : Nat) :
    (drawLines columns ls row screen).cell? y x =
      if row ≤ y ∧ frameColumns / 2 ≤ x then
        match ((lineGlyphs (ls.getD (y - row) [])).take columns)[x - frameColumns / 2]? with
        | some g => (screen.cell? y x).map fun cell => cell.print g.1 g.2
        | none => screen.cell? y x
      else screen.cell? y x := by
  induction ls generalizing row screen with
  | nil => simp [drawLines, lineGlyphs]
  | cons spans ls ih =>
    rw [drawLines, ih, Screen.cell?_print]
    by_cases hy : y = row
    · subst hy
      have hself : ¬y + 1 ≤ y := Nat.not_succ_le_self y
      cases hg : ((lineGlyphs spans).take columns)[x - frameColumns / 2]? <;>
        simp only [Nat.le_refl, true_and, hself, false_and, if_false, Nat.sub_self,
          List.getD_cons_zero, hg]
    · by_cases hlow : row + 1 ≤ y
      · have hsub : y - row = y - (row + 1) + 1 := by omega
        simp [hy, hlow, hsub, Nat.le_of_succ_le hlow]
      · have hnot : ¬row ≤ y := by omega
        simp [hy, hlow, hnot]

/-- The cells of page lines. -/
def pageBox (rows columns y x : Nat) : Prop :=
  frameRows / 2 ≤ y ∧ y < frameRows / 2 + rows ∧ frameColumns / 2 ≤ x ∧
    x < frameColumns / 2 + columns

theorem drawLines_changesOnly (columns : Nat) (ls : List (List Span)) (screen : Screen) :
    ChangesOnly (pageBox ls.length columns) screen
      (drawLines columns ls (frameRows / 2) screen) := by
  intro y x hout
  rw [cell?_drawLines]
  split
  · rename_i hin
    simp only [pageBox, not_and, Nat.not_lt] at hout
    by_cases hy : y < frameRows / 2 + ls.length
    · have hx := hout hin.1 hy hin.2
      rw [List.getElem?_eq_none (by rw [List.length_take]; omega)]
    · have hnone : ls[y - frameRows / 2]? = none := List.getElem?_eq_none (by omega)
      simp [hnone, lineGlyphs]
  · rfl

end Viewer

end TextPager
