import TextPager.Proofs.Viewer.DrawnCells
import TextPager.Proofs.Viewer.InDocument

/-!
# The cells of the frame

The frame is drawn first: two edges and, in each row between them, two sides. Title, status and
footer are drawn over its edges, each between the corners. `framed` is the screen after these, with
the column in which the commands or the prompt end; only a message and the page come after it. The
cells are those of `printText`, one for each character.

**Results.**
* `drawFrame_changesOnly`, `cell?_drawFrame`: the frame touches the border, and what it puts there.
* `framed_changesOnly`: title, status and footer stay between the corners.
* `drawMessage_changesOnly`: a message is drawn right of the footer or not at all.
* `drawChrome_changesOnly`: nothing but the page is drawn inside the border.
-/
namespace TextPager

/-- The parts of a frame that a single page shows. -/
def Frame.shownParts (f : Frame) : Text :=
  [f.top, f.bottom, f.side, f.topLeft, f.topRight, f.leftJoin, f.rightJoin, f.bottomLeft,
    f.bottomRight]

/-- Every named frame can be seen. -/
theorem FrameKind.shownParts_visible (kind : FrameKind) : kind.frame.shownParts.Visible := by
  cases kind <;> decide

/-- The character of a frame in a cell of the border. -/
def Frame.charAt (f : Frame) (rows columns y x : Nat) : Char :=
  if y = 0 then if x = 0 then f.topLeft else if x + 1 = columns then f.topRight else f.top
  else if y + 1 = rows then
    if x = 0 then f.bottomLeft else if x + 1 = columns then f.bottomRight else f.bottom
  else f.side

theorem Cell.print_plain (cell : Cell) (c : Char) : cell.print c .plain = ⟨c, cell.modifiers⟩ := by
  obtain ⟨_, b, u, r⟩ := cell
  cases b <;> cases u <;> cases r <;> rfl

open Screen (ChangesOnly strip border)

namespace Viewer

/-! ## Edges and sides -/

/-- The characters of an edge. -/
def edgeText (columns : Nat) (left middle right : Char) : Text :=
  [left] ++ List.replicate (columns - 2) middle ++ [right]

theorem getElem?_edgeText {columns x : Nat} (h : 2 ≤ columns) (hx : x < columns)
    (left middle right : Char) :
    (edgeText columns left middle right)[x]? =
      some (if x = 0 then left else if x + 1 = columns then right else middle) := by
  unfold edgeText
  by_cases hleft : x = 0
  · simp [hleft]
  · by_cases hright : x + 1 = columns
    · rw [List.getElem?_append_right (by simp; omega)]
      have hlast : x - (columns - 2 + 1) = 0 := by omega
      simp [hlast, hleft, hright]
    · obtain ⟨i, rfl⟩ := Nat.exists_eq_succ_of_ne_zero hleft
      rw [List.getElem?_append_left (by simp; omega)]
      have hi : i < columns - 2 := by omega
      simp [hi, hright]

/-- An edge, from corner to corner. -/
def printEdge (print : Printer) (columns row : Nat) (left middle right : Char) (screen : Screen) :
    Screen :=
  (print columns row 0 columns (edgeText columns left middle right) .plain screen).1

theorem printEdge_changesOnly (columns row : Nat) (left middle right : Char) (screen : Screen) :
    ChangesOnly (strip row 0 columns) screen
      (printEdge printText columns row left middle right screen) :=
  (printText_reaches (by omega) .plain screen).inside

theorem cell?_printEdge {columns row x : Nat} {left middle right : Char} (h : 2 ≤ columns)
    (hv : Text.Visible [left, middle, right]) (hx : x < columns) {screen : Screen} {cell : Cell}
    (hcell : screen.cell? row x = some cell) :
    (printEdge printText columns row left middle right screen).cell? row x =
      some ⟨if x = 0 then left else if x + 1 = columns then right else middle, cell.modifiers⟩ := by
  have hvisible : (edgeText columns left middle right).Visible := fun c hc => by
    simp only [edgeText, List.mem_append, List.mem_singleton] at hc
    rcases hc with (rfl | hc) | rfl
    · exact hv _ (by simp)
    · rw [List.eq_of_mem_replicate hc]
      exact hv _ (by simp)
    · exact hv _ (by simp)
  have hroom : 0 + x < columns := by omega
  have hprint := cell?_printText hvisible hx hroom .plain
    (getElem?_edgeText h hx left middle right) (by rwa [Nat.zero_add])
  rw [Nat.zero_add, Cell.print_plain] at hprint
  exact hprint

/-- A side of the frame in one cell. -/
def printSide (print : Printer) (f : Frame) (columns row column : Nat) (screen : Screen) : Screen :=
  (print columns row column columns [f.side] .plain screen).1

theorem printSide_changesOnly (f : Frame) (columns row column : Nat) (screen : Screen) :
    ChangesOnly (strip row column (column + 1)) screen
      (printSide printText f columns row column screen) :=
  (printText_reaches (by rw [List.length_singleton]; omega) .plain screen).inside

theorem cell?_printSide {f : Frame} {columns row column : Nat} (hv : isControl f.side = false)
    (hc : column < columns) {screen : Screen} {cell : Cell}
    (hcell : screen.cell? row column = some cell) :
    (printSide printText f columns row column screen).cell? row column =
      some ⟨f.side, cell.modifiers⟩ := by
  have hvisible : Text.Visible [f.side] := List.forall_mem_singleton.2 hv
  have hfirst : [f.side][0]? = some f.side := rfl
  rw [← Cell.print_plain]
  exact cell?_printText hvisible (Nat.zero_lt_of_lt hc) hc .plain hfirst hcell

/-- Both sides of the frame in a row. -/
def printSides (print : Printer) (f : Frame) (columns : Nat) (screen : Screen) (row : Nat) :
    Screen :=
  printSide print f columns row (columns - 1) (printSide print f columns row 0 screen)

theorem printSides_changesOnly (f : Frame) {columns : Nat} (h : 2 ≤ columns) (screen : Screen)
    (row : Nat) :
    ChangesOnly (fun y x => y = row ∧ (x = 0 ∨ x + 1 = columns)) screen
      (printSides printText f columns screen row) := by
  refine ((printSide_changesOnly f columns row 0 screen).mono fun y x hin => ⟨hin.1, .inl ?_⟩).trans
    ((printSide_changesOnly f columns row (columns - 1) _).mono fun y x hin => ⟨hin.1, .inr ?_⟩)
  · have := hin.2.2
    omega
  · have := hin.2
    omega

theorem cell?_printSides {f : Frame} {columns row x : Nat} (h : 2 ≤ columns)
    (hv : isControl f.side = false) (hx : x = 0 ∨ x + 1 = columns) {screen : Screen} {cell : Cell}
    (hcell : screen.cell? row x = some cell) :
    (printSides printText f columns screen row).cell? row x = some ⟨f.side, cell.modifiers⟩ := by
  rcases hx with rfl | hx
  · rw [printSides, printSide_changesOnly f columns row (columns - 1) _ row 0
      (by simp only [strip]; omega)]
    exact cell?_printSide hv (by omega) hcell
  · obtain rfl : x = columns - 1 := by omega
    refine cell?_printSide hv (by omega) ?_
    rwa [printSide_changesOnly f columns row 0 _ row (columns - 1) (by simp only [strip]; omega)]

/-! ## The frame -/

/-- Sides drawn in the rows from 1 to `n`. -/
theorem cell?_foldl_printSides {f : Frame} {columns x y n : Nat} (h : 2 ≤ columns)
    (hv : isControl f.side = false) (hx : x = 0 ∨ x + 1 = columns) (hy : 1 ≤ y) (hn : y ≤ n)
    {screen : Screen} {cell : Cell} (hcell : screen.cell? y x = some cell) :
    (((List.range n).map (· + 1)).foldl (printSides printText f columns) screen).cell? y x =
      some ⟨f.side, cell.modifiers⟩ := by
  induction n with
  | zero => omega
  | succ n ih =>
    rw [List.range_succ, List.map_append, List.foldl_append, List.map_singleton, List.foldl_cons,
      List.foldl_nil]
    by_cases hlast : y = n + 1
    · subst hlast
      have hbefore : ChangesOnly (fun y _ => y ≤ n) screen
          (((List.range n).map (· + 1)).foldl (printSides printText f columns) screen) :=
        .foldl (fun row hrow s => (printSides_changesOnly f h s row).mono fun y x hin => by
          obtain ⟨i, hi, rfl⟩ := List.mem_map.1 hrow
          have := List.mem_range.1 hi
          omega) screen
      exact cell?_printSides h hv hx ((hbefore _ _ (by omega)).trans hcell)
    · rw [printSides_changesOnly f h _ _ y x (by omega)]
      exact ih (by omega)

theorem drawFrame_eq (print : Printer) (f : Frame) (rows columns : Nat) (screen : Screen) :
    drawFrame print f rows columns screen =
      printEdge print columns (rows - 1) f.bottomLeft f.bottom f.bottomRight
        (((List.range (rows - 2)).map (· + 1)).foldl (printSides print f columns)
          (printEdge print columns 0 f.topLeft f.top f.topRight screen)) := rfl

/-- The sides of the frame touch no edge. -/
theorem foldl_printSides_changesOnly (f : Frame) {rows columns : Nat} (h : 2 ≤ columns)
    (screen : Screen) :
    ChangesOnly (fun y x => 0 < y ∧ y + 1 < rows ∧ (x = 0 ∨ x + 1 = columns)) screen
      (((List.range (rows - 2)).map (· + 1)).foldl (printSides printText f columns) screen) :=
  .foldl (fun row hrow s => (printSides_changesOnly f h s row).mono fun y x hin => by
    obtain ⟨i, hi, rfl⟩ := List.mem_map.1 hrow
    have := List.mem_range.1 hi
    omega) screen

/-- The frame touches the border. -/
theorem drawFrame_changesOnly (f : Frame) {rows columns : Nat} (hrows : 2 ≤ rows)
    (hcolumns : 2 ≤ columns) (screen : Screen) :
    ChangesOnly (border rows columns) screen (drawFrame printText f rows columns screen) := by
  have hedge (row : Nat) (hrow : row = 0 ∨ row + 1 = rows) (left middle right : Char)
      (s : Screen) : ChangesOnly (border rows columns) s
        (printEdge printText columns row left middle right s) :=
    (printEdge_changesOnly columns row left middle right s).mono fun y x hin => by
      have := hin.1
      simp only [border]
      omega
  rw [drawFrame_eq]
  refine ((hedge 0 (.inl rfl) _ _ _ screen).trans
    ((foldl_printSides_changesOnly f hcolumns _).mono fun y x hin => ?_)).trans
    (hedge (rows - 1) (.inr (by omega)) _ _ _ _)
  exact .inr (.inr hin.2.2)

/-- What the frame puts in the cells of the border. -/
theorem cell?_drawFrame {f : Frame} (hf : f.shownParts.Visible) {rows columns y x : Nat}
    (hrows : 2 ≤ rows) (hcolumns : 2 ≤ columns) (hy : y < rows) (hx : x < columns)
    (hborder : border rows columns y x) :
    (drawFrame printText f rows columns (Screen.blank rows columns)).cell? y x =
      some ⟨f.charAt rows columns y x, .none⟩ := by
  have hpart (c : Char) (hc : c ∈ f.shownParts) : isControl c = false := hf c hc
  have htop : Text.Visible [f.topLeft, f.top, f.topRight] := fun c hc => hpart c (by
    simp only [List.mem_cons, List.not_mem_nil, or_false] at hc
    rcases hc with rfl | rfl | rfl <;> simp [Frame.shownParts])
  have hbottom : Text.Visible [f.bottomLeft, f.bottom, f.bottomRight] := fun c hc => hpart c (by
    simp only [List.mem_cons, List.not_mem_nil, or_false] at hc
    rcases hc with rfl | rfl | rfl <;> simp [Frame.shownParts])
  have hside : isControl f.side = false := hpart _ (by simp [Frame.shownParts])
  have hblank := Screen.cell?_blank hy hx
  rw [drawFrame_eq]
  by_cases htopRow : y = 0
  · subst htopRow
    rw [printEdge_changesOnly _ _ _ _ _ _ 0 x (by simp only [strip]; omega),
      foldl_printSides_changesOnly f hcolumns _ 0 x (by omega),
      cell?_printEdge hcolumns htop hx hblank]
    rfl
  · by_cases hbottomRow : y + 1 = rows
    · obtain rfl : y = rows - 1 := by omega
      have hcell : (((List.range (rows - 2)).map (· + 1)).foldl (printSides printText f columns)
          (printEdge printText columns 0 f.topLeft f.top f.topRight
            (Screen.blank rows columns))).cell? (rows - 1) x = some .blank := by
        rw [foldl_printSides_changesOnly f hcolumns _ (rows - 1) x (by omega),
          printEdge_changesOnly _ _ _ _ _ _ (rows - 1) x (by simp only [strip]; omega), hblank]
      rw [cell?_printEdge hcolumns hbottom hx hcell]
      simp only [Frame.charAt, if_neg htopRow, if_pos hbottomRow]
      rfl
    · have hcolumn : x = 0 ∨ x + 1 = columns := by
        simp only [border] at hborder
        omega
      have hcell : (printEdge printText columns 0 f.topLeft f.top f.topRight
          (Screen.blank rows columns)).cell? y x = some .blank := by
        rw [printEdge_changesOnly _ _ _ _ _ _ y x (by simp only [strip]; omega), hblank]
      rw [printEdge_changesOnly _ _ _ _ _ _ y x (by simp only [strip]; omega),
        cell?_foldl_printSides hcolumns hside hcolumn (by omega) (by omega) hcell]
      simp only [Frame.charAt, if_neg htopRow, if_neg hbottomRow]
      rfl

/-! ## Title, status and footer -/

variable (v : Viewer) {rows columns : Nat}

theorem drawTitle_changesOnly (h : 2 ≤ columns) (screen : Screen) :
    ChangesOnly (strip 0 1 (columns - 1)) screen (v.drawTitle printText columns screen) := by
  unfold drawTitle
  split
  · exact .refl screen
  · exact (printText_reaches (by omega) .plain screen).inside

/-- Numbers below the limit have at most twenty digits. -/
theorem length_ofNat_le {n : Nat} (h : n < wordLimit) : (Text.ofNat n).length ≤ 20 :=
  (Nat.length_toDigits_le_iff (by decide) (by decide)).2 (Nat.lt_trans h (by decide))

theorem length_field_status (h : v.InDocument) (hcount : v.pager.pageCount < wordLimit) :
    (v.frame.field v.status).length < fieldLimit := by
  have hpage : (Text.ofNat (v.bookmark.page + 1)).length ≤ 20 :=
    length_ofNat_le (Nat.lt_of_le_of_lt h.page_lt hcount)
  have hcount := length_ofNat_le hcount
  have hlimit : 100 < fieldLimit := by decide
  simp only [Frame.field, status, List.length_append, List.length_singleton]
  omega

/-- A status whose width is counted right stays between the corners. -/
theorem drawStatus_changesOnly (hstatus : (v.frame.field v.status).length < fieldLimit)
    (screen : Screen) :
    ChangesOnly (strip 0 1 (columns - 1)) screen (v.drawStatus printText columns screen) := by
  have hwidth : fieldWidth (v.frame.field v.status) = (v.frame.field v.status).length :=
    Nat.mod_eq_of_lt hstatus
  simp only [drawStatus, hwidth]
  split
  · rename_i hroom
    refine (printText_reaches ?_ .plain screen).inside.mono fun y x hin =>
      ⟨hin.1, ?_, hin.2.2⟩
    · omega
    · have := hin.2.1
      omega
  · exact .refl screen

/-- Any status stays on the top line. -/
theorem drawStatus_top (screen : Screen) :
    ChangesOnly (fun y _ => y = 0) screen (v.drawStatus printText columns screen) := by
  unfold drawStatus
  dsimp only
  split
  · exact (screen.print_changesOnly 0 _ _).mono fun y x hin => hin.1
  · exact .refl screen

theorem drawCommands_reaches (f : Frame) (row : Nat) (cs : List Command) {column : Nat}
    (hcolumn : 1 ≤ column) (screen : Screen) :
    Reaches row column (columns - 1) screen
      (drawCommands printText f row columns cs screen column) := by
  induction cs generalizing column screen with
  | nil => exact .refl screen
  | cons c cs ih =>
    have hprint : Reaches row column (columns - 1) screen
        (printText columns row column (columns - 2 - (column - 1)) (f.field c.label) .plain
          screen) :=
      printText_reaches (by omega) .plain screen
    exact hprint.trans (ih (Nat.le_trans hcolumn hprint.le) _)

theorem drawPrompt_reaches (f : Frame) (row : Nat) (input : Text) (screen : Screen) :
    Reaches row 2 (columns - 1) screen (drawPrompt printText f row columns input screen) := by
  have hprint : Reaches row 2 (columns - 1) screen
      (printText columns row 2 (columns - 4) ([f.rightJoin] ++ jumpPrompt ++ input) .plain
        screen) :=
    printText_reaches (by omega) .plain screen
  unfold drawPrompt
  generalize printText columns row 2 (columns - 4) ([f.rightJoin] ++ jumpPrompt ++ input) .plain
    screen = p at hprint
  obtain ⟨s, cursor⟩ := p
  dsimp only
  split
  · rename_i hroom
    have hcursor (t : Text) (ht : t.length = 1) (column : Nat) (style : Style) (s : Screen) :
        ChangesOnly (strip row column (column + 1)) s
          (printText columns row column columns t style s).1 :=
      (printText_reaches (by omega) style s).inside
    have hle : 2 ≤ cursor := hprint.le
    refine ⟨?_, by omega, by omega⟩
    refine ((hprint.changes.mono fun y x hin => ⟨hin.1, hin.2.1, ?_⟩).trans
      ((hcursor [' '] rfl cursor _ s).mono fun y x hin => ⟨hin.1, ?_, ?_⟩)).trans
      ((hcursor [f.leftJoin] rfl (cursor + 1) _ _).mono fun y x hin => ⟨hin.1, ?_, ?_⟩)
    all_goals
      have := hin.2
      omega
  · exact hprint

/-- Commands and prompt stay between the corners. -/
theorem drawFooter_reaches (row : Nat) (screen : Screen) :
    ∃ column, 1 ≤ column ∧
      Reaches row column (columns - 1) screen (v.drawFooter printText row columns screen) := by
  unfold drawFooter
  split
  · exact ⟨2, by decide, drawPrompt_reaches v.frame row _ screen⟩
  · exact ⟨1, by decide, drawCommands_reaches v.frame row v.commands (by decide) screen⟩

/-- The frame with title and status. -/
def titled (print : Printer) (v : Viewer) (rows columns : Nat) : Screen :=
  v.drawStatus print columns (v.drawTitle print columns
    (drawFrame print v.frame rows columns (Screen.blank rows columns)))

/-- The screen before a message is drawn, and the column after the commands or the prompt. -/
def framed (print : Printer) (v : Viewer) (rows columns : Nat) : Screen × Nat :=
  v.drawFooter print (rows - 1) columns (v.titled print rows columns)

theorem framed_reaches :
    ∃ column, 1 ≤ column ∧
      Reaches (rows - 1) column (columns - 1) (v.titled printText rows columns)
        (v.framed printText rows columns) :=
  v.drawFooter_reaches (rows - 1) _

theorem one_le_framed : 1 ≤ (v.framed printText rows columns).2 := by
  obtain ⟨column, hcolumn, hfooter⟩ := v.framed_reaches
  exact Nat.le_trans hcolumn hfooter.le

/-- Title, status and footer stay between the corners of their edges, and the footer left of the
column after it. -/
theorem framed_changesOnly (hcolumns : 2 ≤ columns)
    (hstatus : (v.frame.field v.status).length < fieldLimit) :
    ChangesOnly (fun y x => strip 0 1 (columns - 1) y x ∨
        (strip (rows - 1) 1 (columns - 1) y x ∧ x < (v.framed printText rows columns).2))
      (drawFrame printText v.frame rows columns (Screen.blank rows columns))
      (v.framed printText rows columns).1 := by
  have hbars : ChangesOnly (strip 0 1 (columns - 1)) _ (v.titled printText rows columns) :=
    (v.drawTitle_changesOnly hcolumns _).trans (v.drawStatus_changesOnly hstatus _)
  obtain ⟨column, hcolumn, hfooter⟩ := v.framed_reaches
  refine (hbars.mono fun y x hin => .inl hin).trans fun y x hout => ?_
  by_cases hin : strip (rows - 1) 1 (columns - 1) y x
  · exact hfooter.changes y x fun hstrip => hout (.inr ⟨hin, hstrip.2.2⟩)
  · exact hfooter.inside y x fun hstrip =>
      hin ⟨hstrip.1, Nat.le_trans hcolumn hstrip.2.1, hstrip.2.2⟩

/-- A message is drawn right of the footer or not at all. -/
theorem drawMessage_changesOnly (row columns column : Nat) (screen : Screen) :
    ChangesOnly (fun y x => y = row ∧ column < x) screen
      (v.drawMessage printText row columns column screen) := by
  unfold drawMessage
  split
  · exact .refl screen
  · dsimp only
    split
    · rename_i hstart
      exact (screen.print_changesOnly row _ _).mono fun y x hin =>
        ⟨hin.1, Nat.lt_of_lt_of_le hstart hin.2.1⟩
    · exact .refl screen

/-! ## All but the page -/

theorem drawChrome_eq (print : Printer) (hrows : 2 ≤ rows) (hcolumns : 2 ≤ columns) :
    v.drawChrome print rows columns (Screen.blank rows columns) =
      v.drawMessage print (rows - 1) columns (v.framed print rows columns).2
        (v.framed print rows columns).1 :=
  if_neg (by omega)

/-- Nothing but the page is drawn inside the border. -/
theorem drawChrome_changesOnly (hrows : 2 ≤ rows) (hcolumns : 2 ≤ columns) :
    ChangesOnly (border rows columns) (Screen.blank rows columns)
      (v.drawChrome printText rows columns (Screen.blank rows columns)) := by
  have htop {y x : Nat} (hy : y = 0) : border rows columns y x := .inl hy
  have hbottom {y x : Nat} (hy : y = rows - 1) : border rows columns y x :=
    .inr (.inl (by omega))
  have hframe := drawFrame_changesOnly v.frame hrows hcolumns (Screen.blank rows columns)
  have htitle (s : Screen) :
      ChangesOnly (border rows columns) s (v.drawTitle printText columns s) :=
    (v.drawTitle_changesOnly hcolumns s).mono fun _ _ hin => htop hin.1
  have hstatus (s : Screen) :
      ChangesOnly (border rows columns) s (v.drawStatus printText columns s) :=
    (v.drawStatus_top s).mono fun _ _ hin => htop hin
  have htitled : ChangesOnly (border rows columns) (Screen.blank rows columns)
      (v.titled printText rows columns) := (hframe.trans (htitle _)).trans (hstatus _)
  obtain ⟨column, -, hfooter⟩ := v.framed_reaches
  have hframed : ChangesOnly (border rows columns) (v.titled printText rows columns)
      (v.framed printText rows columns).1 := hfooter.changes.mono fun _ _ hin => hbottom hin.1
  rw [v.drawChrome_eq printText hrows hcolumns]
  exact (htitled.trans hframed).trans
    ((v.drawMessage_changesOnly (rows - 1) columns _ _).mono fun _ _ hin => hbottom hin.1)

end Viewer

end TextPager
