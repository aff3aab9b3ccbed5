import TextPager.Viewer.Basic
import TextPager.Viewer.Screen

/-!
# Drawing

The frame carries the title and the status on its top line, and the commands, or the page prompt
with its cursor, on its bottom line; a message stands at the right end of the bottom line if there
is room. The page lies inside the frame, one blank cell away on every side. A screen of fewer than
two rows or columns stays blank.

Text on the border is printed by a `Printer`: `printText` gives every character one column,
`printOn` as many as the terminal does. Whatever prints it, a field that is set from the right is
measured by the number of its characters, modulo `fieldLimit`.

**Results.**
* `fieldWidth_lt`: such a width is below the limit.
* `Viewer.drawChrome_small`: a screen too small for a frame stays blank.
-/
namespace TextPager

/-- Widths of fields are below this number. -/
def fieldLimit : Nat := Nat.pow 2 16

/-- The columns a field is given. -/
def fieldWidth (t : Text) : Nat := t.length % fieldLimit

theorem fieldWidth_lt (t : Text) : fieldWidth t < fieldLimit := Nat.mod_lt _ (by decide)

/-- The text before the input of the page prompt. -/
def jumpPrompt : Text := "Jump to page > ".toList

namespace Viewer

/-- A way to print text of one style on a screen of so many columns: from a cell on, in at most so
many columns and not past the right edge. The column after the text comes with the screen. -/
abbrev Printer := (columns row column limit : Nat) → Text → Style → Screen → Screen × Nat

/-- Prints text with every character taken to be one column wide. -/
def printText (columns row column limit : Nat) (t : Text) (s : Style) (screen : Screen) :
    Screen × Nat :=
  let gs := glyphs t (min limit (columns - column)) s
  (screen.print row column gs, column + gs.length)

/-- Prints characters one after the other while there is room. Control characters and characters of
no columns are left out, the first character without room ends the text, and the cells that a
character takes besides its own are blank. -/
def printFrom (widths : CellWidths) (row : Nat) (s : Style) :
    Text → (column room : Nat) → Screen → Screen × Nat
  | [], column, _, screen => (screen, column)
  | c :: t, column, room, screen =>
    let width := widths.columns c
    if isControl c ∨ width = 0 then printFrom widths row s t column room screen
    else if room < width then (screen, column)
    else
      printFrom widths row s t (column + width) (room - width)
        ((screen.print row column [(c, s)]).erase row (column + 1) (width - 1))

/-- Prints text with each character in the columns it takes. -/
def printOn (widths : CellWidths) : Printer := fun columns row column limit t s screen =>
  printFrom widths row s t column (min limit (columns - column)) screen

variable (print : Printer)

/-- The lines and corners of the frame. -/
def drawFrame (f : Frame) (rows columns : Nat) (screen : Screen) : Screen :=
  let line (row : Nat) (left middle right : Char) (screen : Screen) :=
    (print columns row 0 columns ([left] ++ List.replicate (columns - 2) middle ++ [right])
      .plain screen).1
  let side (screen : Screen) (row : Nat) :=
    let screen := (print columns row 0 columns [f.side] .plain screen).1
    (print columns row (columns - 1) columns [f.side] .plain screen).1
  let screen := line 0 f.topLeft f.top f.topRight screen
  let screen := ((List.range (rows - 2)).map (· + 1)).foldl side screen
  line (rows - 1) f.bottomLeft f.bottom f.bottomRight screen

/-- The title at the left of the top line, unless it is empty. -/
def drawTitle (v : Viewer) (columns : Nat) (screen : Screen) : Screen :=
  if v.pager.title.isEmpty then screen
  else (print columns 0 1 (columns - 2) (v.frame.field v.pager.title) .plain screen).1

/-- The status at the right of the top line, if the line has room for it. -/
def drawStatus (v : Viewer) (columns : Nat) (screen : Screen) : Screen :=
  let field := v.frame.field v.status
  let width := fieldWidth field
  if width + 2 ≤ columns then
    (print columns 0 (columns - 1 - width) columns field .plain screen).1
  else screen

/-- One command after another on the bottom line; the column after them comes with the screen. -/
def drawCommands (f : Frame) (row columns : Nat) : List Command → Screen → Nat → Screen × Nat
  | [], screen, column => (screen, column)
  | c :: cs, screen, column =>
    let (screen, column) :=
      print columns row column (columns - 2 - (column - 1)) (f.field c.label) .plain screen
    drawCommands f row columns cs screen column

/-- The page prompt on the bottom line: what was typed, a cursor, and the join that ends the
field, the last two only if they leave the corner free. -/
def drawPrompt (f : Frame) (row columns : Nat) (input : Text) (screen : Screen) : Screen × Nat :=
  let (screen, cursor) :=
    print columns row 2 (columns - 4) ([f.rightJoin] ++ jumpPrompt ++ input) .plain screen
  if cursor + 1 < columns - 1 then
    let reversed := Style.plain.add .justReversed
    let screen := (print columns row cursor columns [' '] reversed screen).1
    let screen := (print columns row (cursor + 1) columns [f.leftJoin] .plain screen).1
    (screen, cursor + 2)
  else (screen, cursor)

/-- The commands or the page prompt on the bottom line. -/
def drawFooter (v : Viewer) (row columns : Nat) (screen : Screen) : Screen × Nat :=
  match v.mode with
  | .jumping input => drawPrompt print v.frame row columns input screen
  | _ => drawCommands print v.frame row columns v.commands screen 1

/-- The message at the right of the bottom line, if it begins right of `column`. -/
def drawMessage (v : Viewer) (row columns column : Nat) (screen : Screen) : Screen :=
  match v.message with
  | none => screen
  | some e =>
    let field := v.frame.field e.message
    let start := columns - 1 - fieldWidth field
    if column < start then
      (print columns row start columns field (Style.plain.add .justBold) screen).1
    else screen

/-- The frame and all that is set into it. -/
def drawChrome (v : Viewer) (rows columns : Nat) (screen : Screen) : Screen :=
  if rows < 2 ∨ columns < 2 then screen
  else
    let screen := drawFrame print v.frame rows columns screen
    let screen := v.drawTitle print columns screen
    let screen := v.drawStatus print columns screen
    let (screen, column) := v.drawFooter print (rows - 1) columns screen
    v.drawMessage print (rows - 1) columns column screen

/-- The glyphs of a page line. -/
def lineGlyphs (spans : List Span) : List Glyph :=
  spans.flatMap fun span => span.text.map fun c => (c, span.style)

/-- Page lines, each in a row of its own from `row` on, cut to so many columns. -/
def drawLines (columns : Nat) : List (List Span) → Nat → Screen → Screen
  | [], _, screen => screen
  | spans :: rest, row, screen =>
    drawLines columns rest (row + 1)
      (screen.print row (frameColumns / 2) ((lineGlyphs spans).take columns))

/-- The lines of the page on display. -/
def page (v : Viewer) : Page := v.pager.page v.bookmark.page

/-- The screen that shows the viewer. The page is inside the frame, and each of its characters is
taken to be one column wide. -/
def drawBy (v : Viewer) (rows columns : Nat) : Screen :=
  let area := pageArea rows columns
  drawLines area.2 ((pageSpans v.page).take area.1) (frameRows / 2)
    (v.drawChrome print rows columns (Screen.blank rows columns))

/-- The screen that shows the viewer, with every character taken to be one column wide. -/
def draw (v : Viewer) (rows columns : Nat) : Screen := v.drawBy printText rows columns

/-- A screen too small for a frame stays blank. -/
theorem drawChrome_small (v : Viewer) {rows columns : Nat} (h : rows < 2 ∨ columns < 2) :
    v.drawChrome print rows columns (Screen.blank rows columns) = Screen.blank rows columns :=
  if_pos h

end Viewer

end TextPager
