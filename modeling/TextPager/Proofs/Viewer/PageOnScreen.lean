import TextPager.Proofs.Viewer.CarriedPen
import TextPager.Proofs.Viewer.FrameCells

/-!
# The whole page is on the screen

The height of a page is set by the last resize, and clamped to one line; the area a page is drawn
in is worked out from the screen at the moment of drawing. On a screen of five rows and columns or
more that is the screen of the last resize, the two agree: no key changes the height, no page is
taller than it, and inside the border nothing else is drawn.

**Results.**
* `Pager.Ready.length_page_le`: no page of a pager is taller than its height.
* `run_keys_height`: no key changes the height of pages.
* `cell?_draw_inside`, `text_draw_inside`: inside the border there is the page and nothing else.
* `run_draw_page`: the rows of the screen are the lines of the page, cut or filled up with spaces.
-/
namespace TextPager

/-! ## Lines on a screen -/

namespace Text

/-- The text in `n` columns: cut there, or filled up with spaces. -/
def fit (t : Text) (n : Nat) : Text := t.take n ++ spaces (n - t.length)

theorem length_fit (t : Text) (n : Nat) : (t.fit n).length = n := by
  rw [fit, List.length_append, List.length_take, spaces, List.length_replicate]
  omega

theorem getElem?_fit (t : Text) {n i : Nat} (hi : i < n) :
    (t.fit n)[i]? = some (t[i]?.getD ' ') := by
  rw [fit, List.getElem?_append, List.length_take]
  split
  · rename_i h
    rw [List.getElem?_take, if_pos hi, List.getElem?_eq_getElem (by omega)]
    rfl
  · rename_i h
    rw [List.getElem?_eq_none (l := t) (by omega), spaces, List.getElem?_replicate,
      if_pos (by omega)]
    rfl

end Text

/-! ## How tall a page is -/

namespace Pager

theorem height_setGeometry (p : Pager) (height width : Nat) :
    (p.setGeometry height width).height = max height 1 := by
  unfold setGeometry
  split
  · rename_i hsame
    exact hsame.1.symm
  · rfl

theorem length_le_of_mem_makePages {p : Pager} (h : 1 ≤ p.height) {q : Page}
    (hq : q ∈ p.makePages) : q.length ≤ p.height := by
  simp only [makePages] at hq
  split at hq
  · rw [List.mem_singleton.1 hq]
    exact Nat.zero_le _
  · exact Nat.max_eq_left h ▸ length_le_of_mem_paginate hq

/-- No page of a pager is taller than its height. -/
theorem Ready.length_page_le {p : Pager} (h : p.Ready) (index : Nat) :
    (p.page index).length ≤ p.height := by
  rw [page, List.getD_eq_getElem?_getD]
  cases hi : p.pages[index]? with
  | none => exact Nat.zero_le _
  | some q =>
    have hq : q ∈ p.makePages := h.fresh.pages_eq ▸ List.mem_of_getElem? hi
    exact length_le_of_mem_makePages h.height_pos hq

end Pager

open Screen (ChangesOnly border)

namespace Viewer

theorem act_height (v : Viewer) (a : Action) : (v.act a).pager.height = v.pager.height := by
  cases a with
  | input c => exact congrArg Pager.height (editInput_frame (· ++ [c]) v).1
  | erase => exact congrArg Pager.height (editInput_frame List.dropLast v).1
  | submit => exact congrArg Pager.height v.submit_pager
  | _ => rfl

/-- No key changes the height of pages. -/
theorem run_keys_height (v : Viewer) (keys : List KeyPress) :
    (v.run (keys.map .key)).pager.height = v.pager.height := by
  induction keys generalizing v with
  | nil => rfl
  | cons press keys ih =>
    rw [List.map_cons, run_cons, ih]
    rcases v.handle_key press with ⟨-, hsame⟩ | ⟨a, -, hact⟩
    · rw [hsame]
    · rw [hact, act_height]

/-- The page that keys lead to after a resize has room on that screen. -/
theorem InDocument.length_page_le {v : Viewer} (h : v.InDocument) {rows columns : Nat}
    (hrows : frameRows < rows) (keys : List KeyPress) :
    ((v.resize rows columns).run (keys.map .key)).page.length ≤ rows - frameRows := by
  have hready : ((v.resize rows columns).run (keys.map .key)).pager.Ready :=
    ((h.resize rows columns).run _).ready
  have hheight : (v.resize rows columns).pager.height = max (rows - frameRows) 1 :=
    v.pager.height_setGeometry _ _
  calc ((v.resize rows columns).run (keys.map .key)).page.length
      ≤ ((v.resize rows columns).run (keys.map .key)).pager.height := hready.length_page_le _
    _ = (v.resize rows columns).pager.height := run_keys_height _ keys
    _ = rows - frameRows := by omega

/-! ## What a page shows -/

variable {v : Viewer} {rows columns : Nat}

/-- The spans of a line of the page; none after its last line. -/
def lineSpans (v : Viewer) (r : Nat) : List Span := (pageSpans v.page).getD r []

/-- The characters of a line of the page as it is shown. -/
def lineText (v : Viewer) (r : Nat) : Text := (v.lineSpans r).flatMap Span.text

theorem lineText_of_length_le {r : Nat} (h : v.page.length ≤ r) : v.lineText r = [] := by
  have hnone : (pageSpans v.page)[r]? = none :=
    List.getElem?_eq_none (by rwa [pageSpans, length_linesSpans])
  simp [lineText, lineSpans, hnone]

/-- The glyphs of a line are its characters, each with a style. -/
theorem map_lineGlyphs (spans : List Span) :
    (lineGlyphs spans).map Prod.fst = spans.flatMap Span.text := by
  simp [lineGlyphs, List.map_flatMap, Function.comp_def]

/-- A cell inside the border shows the page or is blank. -/
theorem cell?_draw_inside (hrows : 2 ≤ rows) (hcolumns : 2 ≤ columns) {r c : Nat}
    (hr : r < rows - frameRows) (hc : c < columns - frameColumns) :
    (v.draw rows columns).cell? (frameRows / 2 + r) (frameColumns / 2 + c) =
      match (lineGlyphs (v.lineSpans r))[c]? with
      | some g => some (Cell.blank.print g.1 g.2)
      | none => some .blank := by
  have hinside : ¬border rows columns (frameRows / 2 + r) (frameColumns / 2 + c) := by
    simp only [border, frameRows, frameColumns] at hr hc ⊢
    omega
  have hblank : (v.drawChrome printText rows columns (Screen.blank rows columns)).cell?
      (frameRows / 2 + r) (frameColumns / 2 + c) = some .blank := by
    rw [v.drawChrome_changesOnly hrows hcolumns _ _ hinside]
    refine Screen.cell?_blank ?_ ?_
    all_goals
      simp only [frameRows, frameColumns] at hr hc ⊢
      omega
  have hline : ((pageSpans v.page).take (rows - frameRows)).getD r [] = v.lineSpans r := by
    rw [lineSpans, List.getD_eq_getElem?_getD, List.getElem?_take, if_pos hr,
      List.getD_eq_getElem?_getD]
  have hcut (gs : List Glyph) : (gs.take (columns - frameColumns))[c]? = gs[c]? := by
    rw [List.getElem?_take, if_pos hc]
  simp only [draw, drawBy, pageArea]
  rw [cell?_drawLines, if_pos ⟨Nat.le_add_right _ _, Nat.le_add_right _ _⟩,
    Nat.add_sub_cancel_left, Nat.add_sub_cancel_left, hline, hcut, hblank]
  rfl

/-- So its character is that of the line, or a space after the end of the line. -/
theorem char?_draw_inside (hrows : 2 ≤ rows) (hcolumns : 2 ≤ columns) {r c : Nat}
    (hr : r < rows - frameRows) (hc : c < columns - frameColumns) :
    (v.draw rows columns).char? (frameRows / 2 + r) (frameColumns / 2 + c) =
      some ((v.lineText r)[c]?.getD ' ') := by
  rw [Screen.char?, cell?_draw_inside hrows hcolumns hr hc, lineText, ← map_lineGlyphs,
    List.getElem?_map]
  cases (lineGlyphs (v.lineSpans r))[c]? <;> rfl

/-- A row inside the border is a line of the page, cut at the last column or filled up with
spaces. -/
theorem text_draw_inside (hrows : 2 ≤ rows) (hcolumns : frameColumns ≤ columns) {r : Nat}
    (hr : r < rows - frameRows) :
    (v.draw rows columns).text (frameRows / 2 + r) (frameColumns / 2)
        (columns - frameColumns / 2) =
      (v.lineText r).fit (columns - frameColumns) := by
  have hwide : 2 ≤ columns := Nat.le_trans (by decide) hcolumns
  have hend : frameColumns / 2 + (columns - frameColumns) = columns - frameColumns / 2 := by
    simp only [frameColumns] at hcolumns ⊢
    omega
  refine Screen.text_eq (by rw [Text.length_fit, hend]) fun i c hi => ?_
  have hlt : i < columns - frameColumns := by
    have hin := (List.getElem?_eq_some_iff.1 hi).1
    rwa [Text.length_fit] at hin
  rw [char?_draw_inside hrows hwide hr hlt, ← hi, Text.getElem?_fit _ hlt]

/-- **The whole page is on the screen.** Whatever happened before the last resize and whatever keys
came after it, the page is no taller than the rows inside the border and the blank cells next to
it, and each of these rows shows the line of the page that belongs there, cut or filled up with
spaces; below the last line they are all spaces. -/
theorem run_draw_page (text title : Text) (height width : Nat) (mode : WrapMode) (frame : Frame)
    (before : List Event) (rows columns : Nat) (keys : List KeyPress) (hrows : 5 ≤ rows)
    (hcolumns : 5 ≤ columns) :
    let v := (ofPager (.ofText text title height width mode) frame).run
      (before ++ .resize rows columns :: keys.map .key)
    v.page.length ≤ rows - 4 ∧ (∀ r, v.page.length ≤ r → v.lineText r = []) ∧
      ∀ r < rows - 4,
        (v.draw rows columns).text (2 + r) 2 (columns - 2) = (v.lineText r).fit (columns - 4) := by
  intro v
  have hin := (InDocument.ofPager (.ofText text title height width mode) frame).run before
  have hv : v = (((ofPager (.ofText text title height width mode) frame).run before).resize rows
      columns).run (keys.map .key) := run_append _ before _
  refine ⟨?_, fun r => lineText_of_length_le, fun r hr => ?_⟩
  · rw [hv]
    exact hin.length_page_le hrows keys
  · exact text_draw_inside (by omega) (Nat.le_of_lt hcolumns) hr

/-- The second page of a document on a screen of six rows, after a jump that was rejected: each
of its two lines has a row, and a tab takes up most of the first. -/
theorem run_draw_page_second :
    let keys : List KeyPress :=
      [⟨.char 'N', false⟩, ⟨.char 'J', false⟩, ⟨.char '7', false⟩, ⟨.enter, false⟩]
    let v := (ofPager (.ofText "one\ntwo\na\tb\nseventy".toList "menu".toList 9 9 .noWrap)
      FrameKind.heavy.frame).run ([.resize 24 80] ++ .resize 6 13 :: keys.map .key)
    v.page = ["a\tb".toList, "seventy".toList] ∧ v.page.length ≤ 2 ∧
      (v.draw 6 13).text 2 2 11 = "a       b".toList ∧
      (v.draw 6 13).text 3 2 11 = "seventy  ".toList := by
  intro keys v
  have hfirst : (v.lineText 0).fit 9 = "a       b".toList := by decide +kernel
  have hsecond : (v.lineText 1).fit 9 = "seventy  ".toList := by decide +kernel
  obtain ⟨hlength, -, hrow⟩ := run_draw_page "one\ntwo\na\tb\nseventy".toList "menu".toList 9 9
    .noWrap FrameKind.heavy.frame [.resize 24 80] 6 13 keys (by decide) (by decide)
  exact ⟨by decide +kernel, hlength, (hrow 0 (by decide)).trans hfirst,
    (hrow 1 (by decide)).trans hsecond⟩

end Viewer

end TextPager
