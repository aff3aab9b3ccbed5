import TextPager.Proofs.Text.LongMode
import TextPager.Proofs.Viewer.CarriedPen

/-!
# Long lines on the screen

In long mode a line wider than the page is filled anew, its overlong words broken, and a line that is
no wider stays as it is. What is wide is told by the number of visible characters, and there a tab is
one of them; on the screen a tab runs to the next tab stop. The lines that are filled anew hold no
tabs, so for them both measures agree and they fit. A line that stays as it is fits exactly if it does
with its tabs run to their stops.

**Results.**
* `map_text_linesSpans`: what lines show does not depend on the pen.
* `length_shown`: a line without other control characters shows as many characters as it has columns
  with its tabs run to their stops.
* `forall_mem_wrapLong_iff`: a line that is filled anew fits, and one that stays fits if its columns
  do.
* `pageSpans_long_fits_iff`: when every line of a document fits the screen.
-/
namespace TextPager

/-! ## What a line shows -/

/-- What segments show from a column on. -/
def shownFrom : Nat → List Segment → Text
  | _, [] => []
  | column, .escape _ :: ss => shownFrom column ss
  | column, .char c :: ss =>
    shownAs column c ++ shownFrom (column + (shownAs column c).length) ss

/-- What a line shows. -/
def Text.shown (l : Text) : Text := shownFrom 0 l.segments

/-- Columns of a line with its tabs run to the tab stops. -/
def Text.columns (l : Text) : Nat := l.foldl columnAfter 0

/-- The spans of a line show the text that was held, and then the line. -/
theorem flatMap_text_spansFrom (pen : Pen) (held : Text) (column : Nat) (ss : List Segment) :
    (spansFrom pen held column ss).1.flatMap Span.text = held ++ shownFrom column ss := by
  have hspan : ∀ (t : Text) (s : Style), (spanOf t s).flatMap Span.text = t := by
    intro t s
    cases t <;> simp [spanOf]
  induction ss generalizing pen held column with
  | nil => simp [spansFrom, shownFrom, hspan]
  | cons s ss ih =>
    cases s with
    | char c => rw [spansFrom_char, ih, shownFrom, List.append_assoc]
    | escape e =>
      rw [spansFrom, shownFrom]
      split
      · exact ih _ _ _
      · show (spanOf held pen.shown ++ (spansFrom (pen.apply e) [] column ss).1).flatMap Span.text = _
        rw [List.flatMap_append, hspan, ih, List.nil_append]

/-- What lines show does not depend on the pen. -/
theorem map_text_linesSpans (pen : Pen) (ls : List Text) :
    (linesSpans pen ls).map (·.flatMap Span.text) = ls.map Text.shown := by
  induction ls generalizing pen with
  | nil => rfl
  | cons l ls ih =>
    rw [linesSpans_cons, List.map_cons, List.map_cons, ih, flatMap_text_spansFrom, List.nil_append]
    rfl

theorem length_shownAs {c : Char} (h : isShown c = true) (column : Nat) :
    column + (shownAs column c).length = columnAfter column c := by
  unfold shownAs columnAfter
  by_cases ht : c = '\t'
  · simp only [ht, if_true, Text.spaces, List.length_replicate]
    omega
  · have hc : isControl c = false := by simpa [isShown, ht] using h
    simp [ht, hc]

/-- A line of tabs and characters that are shown has no escape sequences. -/
theorem esc_not_mem_of_isShown {l : Text} (h : ∀ c ∈ l, isShown c = true) : esc ∉ l := fun he =>
  absurd (h esc he) (by decide)

/-- Without other control characters a line shows as many characters as it has columns with its tabs
run to the tab stops. -/
theorem length_shown {l : Text} (h : ∀ c ∈ l, isShown c = true) : l.shown.length = l.columns := by
  have hfrom : ∀ column, column + (shownFrom column (l.map .char)).length =
      l.foldl columnAfter column := by
    induction l with
    | nil => exact fun _ => rfl
    | cons c l ih =>
      intro column
      obtain ⟨hc, hl⟩ := List.forall_mem_cons.1 h
      rw [List.map_cons, shownFrom, List.length_append, ← Nat.add_assoc, length_shownAs hc,
        List.foldl_cons]
      exact ih hl _
  rw [Text.shown, Text.segments_of_not_mem (esc_not_mem_of_isShown h), Text.columns, ← hfrom,
    Nat.zero_add]

/-- Without any control characters, tabs included, the columns are the characters. -/
theorem columns_eq_length {l : Text} (h : ∀ c ∈ l, isControl c = false) : l.columns = l.length := by
  have hfrom : ∀ column, l.foldl columnAfter column = column + l.length := by
    induction l with
    | nil => exact fun _ => rfl
    | cons c l ih =>
      intro column
      obtain ⟨hc, hl⟩ := List.forall_mem_cons.1 h
      have ht : c ≠ '\t' := by
        rintro rfl
        exact absurd hc (by decide)
      rw [List.foldl_cons, ih hl, columnAfter, if_neg ht, List.length_cons]
      omega
  rw [Text.columns, hfrom, Nat.zero_add]

/-! ## Lines that are filled anew -/

/-- A line that is filled anew fits the screen: its words hold no tab, as a tab is white space. -/
theorem fits_of_mem_wrapLong {line l : Text} (h : ∀ c ∈ line, isShown c = true) {width : Nat}
    (hw : 1 ≤ width) (hwide : width < line.length) (hl : l ∈ wrapLong width line) :
    l.shown.length ≤ width := by
  have hesc : esc ∉ line := esc_not_mem_of_isShown h
  have hwidth := width_le_of_mem_wrapLong (Text.neat_of_not_mem hesc) hw hl
  have hwords : ∀ w ∈ line.words, ∀ c ∈ w, isControl c = false := by
    intro w hmem c hc
    have hshown := h c (Text.mem_of_mem_words hmem hc)
    have hspace := (Text.mem_words hmem).2 c hc
    have htab : c ≠ '\t' := by
      rintro rfl
      exact absurd hspace (by decide)
    simpa [isShown, htab] using hshown
  have hplain : ∀ c ∈ l, isControl c = false := by
    rw [wrapLong, if_neg (by rw [Text.width_of_not_mem hesc]; omega)] at hl
    exact Text.mem_of_mem_fill (by decide) hwords hl
  have hshown : ∀ c ∈ l, isShown c = true := fun c hc => by simp [isShown, hplain c hc]
  have hescl : esc ∉ l := esc_not_mem_of_isShown hshown
  rwa [length_shown hshown, columns_eq_length hplain, ← Text.width_of_not_mem hescl]

/-- What long mode makes of a line fits the screen exactly if the line stays and fits, or is filled
anew. -/
theorem forall_mem_wrapLong_iff {line : Text} (h : ∀ c ∈ line, isShown c = true) {width : Nat}
    (hw : 1 ≤ width) :
    (∀ l ∈ wrapLong width line, l.shown.length ≤ width) ↔
      (line.length ≤ width → line.columns ≤ width) := by
  by_cases hfit : line.length ≤ width
  · rw [wrapLong, if_pos (by rwa [Text.width_of_not_mem (esc_not_mem_of_isShown h)]),
      List.forall_mem_singleton, length_shown h]
    exact ⟨fun hc _ => hc, fun hc => hc hfit⟩
  · refine iff_of_true (fun l hl => ?_) fun hle => absurd hle hfit
    exact fits_of_mem_wrapLong h hw (Nat.lt_of_not_le hfit) hl

/-! ## The document -/

/-- What the spans of lines show is what the lines show. -/
theorem forall_mem_pageSpans_iff (Q : Text → Prop) (ls : List Text) :
    (∀ spans ∈ pageSpans ls, Q (spans.flatMap Span.text)) ↔ ∀ l ∈ ls, Q l.shown := by
  have hmap := map_text_linesSpans .initial ls
  constructor
  · intro h l hl
    obtain ⟨spans, hspans, heq⟩ := List.mem_map.1 (hmap ▸ List.mem_map_of_mem hl)
    exact heq ▸ h spans hspans
  · intro h spans hspans
    obtain ⟨l, hl, heq⟩ := List.mem_map.1 (hmap ▸ List.mem_map_of_mem hspans)
    exact heq ▸ h l hl

/-- **When long lines fit the screen.** Let a document hold no control characters but tabs and
newlines. In long mode every line shows at most as many characters as the page has columns exactly if
each line of the document with at most that many characters does so: a line with more is filled anew
and always fits. -/
theorem pageSpans_long_fits_iff (s : Man.Styles) {t : Text}
    (h : ∀ c ∈ t, isControl c = true → c = '\t' ∨ c = '\n') {width : Nat} (hw : 1 ≤ width) :
    (∀ spans ∈ pageSpans (reflow s .long width t), (spans.flatMap Span.text).length ≤ width) ↔
      ∀ line ∈ t.piecesAt '\n', line.length ≤ width → line.columns ≤ width := by
  have hshown : ∀ line ∈ t.piecesAt '\n', ∀ c ∈ line, isShown c = true := by
    intro line hline c hc
    have hn : c ≠ '\n' := by simpa using Text.not_mem_of_mem_pieces hline hc
    by_cases hcontrol : isControl c = true
    · have htab := (h c (Text.mem_of_mem_pieces hline hc) hcontrol).resolve_right hn
      simp [isShown, htab]
    · simp [isShown, hcontrol]
  have hlines : reflow s .long width t = (t.piecesAt '\n').flatMap (wrapLong width) := by
    show reflowLong t (max width 1) = _
    rw [Nat.max_eq_left hw]
    rfl
  rw [forall_mem_pageSpans_iff fun shown => shown.length ≤ width, hlines, List.forall_mem_flatMap]
  exact forall₂_congr fun line hline => forall_mem_wrapLong_iff (hshown line hline) hw

/-- A tab that reaches the last column but one, and a wide line with tabs that is broken. -/
theorem pageSpans_long_fits_tabs :
    (∀ c ∈ "\tab\n\tspam\tand eggs and bacon".toList, isControl c = true → c = '\t' ∨ c = '\n') ∧
      1 ≤ 10 ∧ ∀ spans ∈ pageSpans (reflow .ansi .long 10 "\tab\n\tspam\tand eggs and bacon".toList),
        (spans.flatMap Span.text).length ≤ 10 := by
  have h : ∀ c ∈ "\tab\n\tspam\tand eggs and bacon".toList,
      isControl c = true → c = '\t' ∨ c = '\n' := Text.forall_mem_of_all (by decide)
  have hw : 1 ≤ 10 := by decide
  exact ⟨h, hw, (pageSpans_long_fits_iff .ansi h hw).2 (by decide)⟩

/-- A line of three characters, one of them a tab, is not wider than three columns and stays as it
is; it shows nine. -/
theorem pageSpans_long_tab :
    ¬∀ spans ∈ pageSpans (reflow .ansi .long 3 "a\tb".toList),
      (spans.flatMap Span.text).length ≤ 3 := by
  decide

end TextPager
