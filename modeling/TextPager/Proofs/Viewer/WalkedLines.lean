import TextPager.Proofs.Viewer.CarriedPen

/-!
# What spans show, character by character

Spans are made of text that is held until the style changes, so an escape sequence between two
characters may end a span, end none, or change the style and change it back. A `Walk` has no spans.
It goes through the segments of a line one at a time with one pen: an escape sequence moves the pen,
a tab shows spaces up to the next tab stop, any other control character shows nothing, and every
other character shows itself; what is shown is shown in the style of the pen there and then. Spans,
spread into their characters, are what a walk shows.

**Results.**
* `Walk.step_char`: a walk and a span set the same text for a character.
* `walk_spansFrom`: the spans of a line from any point on, with the text held there, continue a
  walk.
* `pageSpans_walked`: the spans of a page are a walk through its lines, and no span is empty.
-/
namespace TextPager

/-- The characters of a span, each in its style. -/
def Span.chars (s : Span) : List (Char × Style) := s.text.map fun c => (c, s.style)

/-- A walk through a line: the pen, and what is shown of the line so far. -/
structure Walk where
  pen : Pen
  shown : List (Char × Style)

namespace Walk

/-- Shows text in the style of the pen. -/
def put (w : Walk) (t : Text) : Walk :=
  { w with shown := w.shown ++ t.map fun c => (c, w.pen.shown) }

/-- One segment. A tab fills the line up to the next multiple of the distance of tab stops. -/
def step (w : Walk) : Segment → Walk
  | .escape e => { w with pen := w.pen.apply e }
  | .char c =>
    if c = '\t' then
      w.put (Text.spaces (tabStop * (w.shown.length / tabStop + 1) - w.shown.length))
    else if isControl c then w
    else w.put [c]

/-- A walk through a whole line. -/
def line (pen : Pen) (l : Text) : Walk := l.segments.foldl step ⟨pen, []⟩

/-- What lines show, one after the other, with one pen. -/
def lines : Pen → List Text → List (List (Char × Style))
  | _, [] => []
  | pen, l :: ls => (line pen l).shown :: lines (line pen l).pen ls

/-- A character shows what it sets in a span. -/
theorem step_char (w : Walk) (c : Char) : w.step (.char c) = w.put (shownAs w.shown.length c) := by
  simp only [step, shownAs]
  by_cases ht : c = '\t'
  · have hstop : tabStop * (w.shown.length / tabStop + 1) - w.shown.length =
        columnAfter w.shown.length c - w.shown.length := by
      simp only [tabStop, columnAfter, ht, if_true]
      omega
    rw [if_pos ht, if_pos ht, hstop]
  · rw [if_neg ht, if_neg ht]
    split
    · simp [put]
    · rfl

theorem foldl_step_pen (w : Walk) (ss : List Segment) :
    (ss.foldl step w).pen = w.pen.after ss := by
  induction ss generalizing w with
  | nil => rfl
  | cons s ss ih =>
    rw [List.foldl_cons, ih]
    cases s with
    | escape e => rfl
    | char c => rw [step_char]; rfl

end Walk

theorem flatMap_chars_spanOf (t : Text) (s : Style) :
    (spanOf t s).flatMap Span.chars = t.map fun c => (c, s) := by
  cases t <;> simp [spanOf, Span.chars]

/-- The spans of a line from any point on continue a walk that has shown what stands in the spans
before that point, and the text that is held there. -/
theorem walk_spansFrom (ss : List Segment) (pen : Pen) (held : Text)
    (before : List (Char × Style)) :
    before ++ (spansFrom pen held (before.length + held.length) ss).1.flatMap Span.chars =
      (ss.foldl Walk.step ⟨pen, before ++ held.map fun c => (c, pen.shown)⟩).shown := by
  induction ss generalizing pen held before with
  | nil => simp [spansFrom, flatMap_chars_spanOf]
  | cons s ss ih =>
    rw [List.foldl_cons]
    cases s with
    | char c =>
      have hcolumn : (before ++ held.map fun c => (c, pen.shown)).length =
          before.length + held.length := by simp
      have hnext := ih pen (held ++ shownAs (before.length + held.length) c) before
      rw [List.length_append, ← Nat.add_assoc] at hnext
      rw [spansFrom_char, hnext, Walk.step_char, Walk.put, hcolumn, List.map_append,
        List.append_assoc]
    | escape e =>
      rw [spansFrom, Walk.step]
      dsimp only
      split
      · -- The text that is held goes on in the same style.
        rename_i hsame
        rw [ih, hsame]
      · -- The text that is held becomes a span, and nothing is held after it.
        have hnext := ih (pen.apply e) [] (before ++ held.map fun c => (c, pen.shown))
        simp only [List.length_append, List.length_map, List.length_nil, Nat.add_zero,
          List.map_nil, List.append_nil] at hnext
        rw [List.flatMap_append, flatMap_chars_spanOf, ← List.append_assoc, hnext]

/-- The spans of lines are a walk through the lines. -/
theorem linesSpans_walked (pen : Pen) (ls : List Text) :
    (linesSpans pen ls).map (·.flatMap Span.chars) = Walk.lines pen ls := by
  induction ls generalizing pen with
  | nil => rfl
  | cons l ls ih =>
    have hline := walk_spansFrom l.segments pen [] []
    rw [List.map_nil, List.append_nil, List.nil_append] at hline
    rw [linesSpans_cons, List.map_cons, ih, Walk.lines, Walk.line, Walk.foldl_step_pen, ← hline]
    rfl

/-- No span of any line is empty. -/
theorem linesSpans_text_ne_nil {pen : Pen} {ls : List Text} {spans : List Span}
    (hs : spans ∈ linesSpans pen ls) {span : Span} (h : span ∈ spans) : span.text ≠ [] := by
  induction ls generalizing pen with
  | nil => cases hs
  | cons l ls ih =>
    rw [linesSpans_cons] at hs
    rcases List.mem_cons.1 hs with rfl | hs
    · exact spansFrom_text_ne_nil pen [] 0 l.segments h
    · exact ih hs

/-- **Spans show what a walk shows.** The spans of each line of a page, read as characters with
their styles, are what a walk with one pen through all lines shows of it, whatever escape sequences
the lines hold; and no span is empty. -/
theorem pageSpans_walked (page : List Text) :
    (pageSpans page).map (·.flatMap Span.chars) = Walk.lines .initial page ∧
      ∀ spans ∈ pageSpans page, ∀ span ∈ spans, span.text ≠ [] :=
  ⟨linesSpans_walked .initial page, fun _ hs _ h => linesSpans_text_ne_nil hs h⟩

/-- Bold text over a line end, a style that changes and changes back, a tab and a bell. -/
example : pageSpans ["a\x1b[1mb\x1b[m\x1b[1mc".toList, "\td\x07\x1b]8;;x\x07e".toList] =
    [[⟨['a'], .plain⟩, ⟨['b'], Style.plain.add .justBold⟩, ⟨['c'], Style.plain.add .justBold⟩],
      [⟨Text.spaces 8 ++ ['d'], Style.plain.add .justBold⟩,
        ⟨['e'], (Style.plain.add .justBold).add .justUnderlined⟩]] := by
  decide +kernel

end TextPager
