import TextPager.Page.Basic
import TextPager.Reflow
import TextPager.Viewer.Span

/-!
# Styles across page boundaries

Spans are made page by page, and each page begins with a plain pen. Lines shown as one run carry
the pen from line to line instead. The two differ where emphasis is open at the end of a page and
the next page shows text before it has chosen its own style.

What two pens show of a line is compared without making spans. A `Stroke` is a pen that remembers
whether text was set since its style last changed. Two strokes `agree` on segments if, wherever
text is set, both show it in the same style, and both either continue the text before it or begin
a new span.

**Results.**
* `spansFrom_char`: a visible character sets the same text whatever the pen.
* `linesSpans_eq_iff`: two pens make the same spans exactly when they agree.
* `linesSpans_flatten_iff`: pages shown one by one look as one run exactly when every page looks the
  same to a plain pen and to the pen carried over from the pages before it.
* `flatMap_pageSpans_paginate_iff`: so do the pages of a document at any height; this fails when
  bold text runs over a page boundary (`pageSpans_bold_over_boundary`).
-/
namespace TextPager

namespace Pen

/-- The pen after the escape sequences among segments. -/
def after : Pen → List Segment → Pen
  | p, [] => p
  | p, .escape e :: ss => (p.apply e).after ss
  | p, .char _ :: ss => p.after ss

/-- The pen after lines. -/
def afterLines (p : Pen) (ls : List Text) : Pen := ls.foldl (fun p l => p.after l.segments) p

end Pen

/-- What a visible character sets at a column: a tab sets spaces, and a control character
nothing. -/
def shownAs (column : Nat) (c : Char) : Text :=
  if c = '\t' then Text.spaces (columnAfter column c - column)
  else if isControl c then [] else [c]

/-- A character that sets something. -/
def isShown (c : Char) : Bool := c == '\t' || !isControl c

theorem shownAs_eq_nil_iff (column : Nat) (c : Char) :
    shownAs column c = [] ↔ isShown c = false := by
  have hlt : column % tabStop < tabStop := Nat.mod_lt _ (by decide)
  unfold shownAs isShown
  by_cases ht : c = '\t'
  · simp [ht, Text.spaces, columnAfter]
    omega
  · by_cases hc : isControl c = true <;> simp [ht, hc]

/-- A visible character sets the same text whatever the pen. -/
theorem spansFrom_char (pen : Pen) (held : Text) (column : Nat) (c : Char) (ss : List Segment) :
    spansFrom pen held column (.char c :: ss) =
      spansFrom pen (held ++ shownAs column c) (column + (shownAs column c).length) ss := by
  rw [spansFrom, shownAs]
  by_cases ht : c = '\t'
  · have hc : column + (columnAfter column c - column) = columnAfter column c := by
      simp only [columnAfter, ht, if_true]
      omega
    simp [ht, Text.spaces] at hc ⊢
    rw [hc]
  · by_cases hc : isControl c = true <;> simp [ht, hc]

theorem spansFrom_snd (pen : Pen) (held : Text) (column : Nat) (ss : List Segment) :
    (spansFrom pen held column ss).2 = pen.after ss := by
  induction ss generalizing pen held column with
  | nil => rfl
  | cons s ss ih =>
    cases s with
    | char c => rw [spansFrom_char, ih, Pen.after]
    | escape e =>
      rw [spansFrom, Pen.after]
      split <;> exact ih ..

/-- Text that is held begins the next span. -/
theorem spansFrom_of_held {held : Text} (hh : held ≠ []) (pen : Pen) (column : Nat)
    (ss : List Segment) :
    ∃ more rest, (spansFrom pen held column ss).1 = ⟨held ++ more, pen.shown⟩ :: rest := by
  induction ss generalizing pen held column with
  | nil => exact ⟨[], [], by simp [spansFrom, spanOf, hh]⟩
  | cons s ss ih =>
    cases s with
    | char c =>
      rw [spansFrom_char]
      have hne : held ++ shownAs column c ≠ [] := by simp [hh]
      obtain ⟨more, rest, h⟩ := ih hne pen (column + (shownAs column c).length)
      exact ⟨shownAs column c ++ more, rest, by rw [h, List.append_assoc]⟩
    | escape e =>
      rw [spansFrom]
      by_cases hs : (pen.apply e).shown = pen.shown
      · obtain ⟨more, rest, h⟩ := ih hh (pen.apply e) column
        exact ⟨more, rest, by simp only [hs, if_true] at h ⊢; exact h⟩
      · exact ⟨[], _, by simp only [hs, if_false, spanOf, List.isEmpty_iff, hh]; simp; rfl⟩

/-- Text set after held text is not a span of its own. -/
theorem spansFrom_append_ne {x y : Text} (hx : x ≠ []) (hy : y ≠ []) (pen : Pen) (column : Nat)
    (ss : List Segment) (st : Style) (spans : List Span) :
    (spansFrom pen (x ++ y) column ss).1 ≠ ⟨x, st⟩ :: spans := by
  have hne : x ++ y ≠ [] := by simp [hx]
  obtain ⟨more, rest, h⟩ := spansFrom_of_held hne pen column ss
  rw [h]
  intro he
  have ht : x ++ y ++ more = x := congrArg Span.text (List.cons.inj he).1
  have hl := congrArg List.length ht
  have := List.length_pos_iff.2 hy
  simp only [List.length_append] at hl
  omega

/-! ## Two pens on one line -/

/-- A pen on a line, and whether text was set since its style last changed. -/
structure Stroke where
  pen : Pen
  holds : Bool
  deriving DecidableEq, Repr

namespace Stroke

/-- After an escape sequence: a change of style ends the span. -/
def see (s : Stroke) (e : Text) : Stroke :=
  ⟨s.pen.apply e, s.holds && (s.pen.apply e).shown == s.pen.shown⟩

/-- After text is set. -/
def set (s : Stroke) : Stroke := { s with holds := true }

/-- Where text is set, both show it in the same style, and both continue the text before it or
both begin a span. -/
def agree : Stroke → Stroke → List Segment → Bool
  | _, _, [] => true
  | s, t, .escape e :: ss => agree (s.see e) (t.see e) ss
  | s, t, .char c :: ss =>
    if isShown c then s.pen.shown == t.pen.shown && s.holds == t.holds && agree s.set t.set ss
    else agree s t ss

/-- The spans from text `x` on, which the stroke holds or has ended in style `st`. -/
def spansAfter (x : Text) (st : Style) (s : Stroke) (column : Nat) (ss : List Segment) :
    List Span :=
  if s.holds then (spansFrom s.pen x column ss).1
  else ⟨x, st⟩ :: (spansFrom s.pen [] column ss).1

theorem spansAfter_nil {x : Text} (hx : x ≠ []) {st : Style} {s : Stroke}
    (hs : s.holds = true → s.pen.shown = st) (column : Nat) :
    s.spansAfter x st column [] = [⟨x, st⟩] := by
  unfold spansAfter
  split
  · rename_i h
    simp [spansFrom, spanOf, hx, hs h]
  · rfl

theorem spansAfter_escape {x : Text} (hx : x ≠ []) {st : Style} {s : Stroke}
    (hs : s.holds = true → s.pen.shown = st) (column : Nat) (e : Text) (ss : List Segment) :
    s.spansAfter x st column (.escape e :: ss) = (s.see e).spansAfter x st column ss := by
  by_cases he : (s.pen.apply e).shown = s.pen.shown
  · simp [spansAfter, see, spansFrom, he]
  · cases hh : s.holds with
    | true => simp [spansAfter, see, spansFrom, spanOf, he, hh, hx, ← hs hh]
    | false => simp [spansAfter, see, spansFrom, spanOf, he, hh]

theorem see_shown {st : Style} {s : Stroke} (hs : s.holds = true → s.pen.shown = st) (e : Text) :
    (s.see e).holds = true → (s.see e).pen.shown = st := by
  intro h
  obtain ⟨h1, h2⟩ := Bool.and_eq_true_iff.1 h
  exact (beq_iff_eq.1 h2).trans (hs h1)

/-- Text set by a stroke that holds text before it continues that text. -/
theorem spansAfter_char (x : Text) (st : Style) (s : Stroke) (column : Nat) (c : Char)
    (ss : List Segment) :
    s.spansAfter x st column (.char c :: ss) =
      if s.holds then
        s.set.spansAfter (x ++ shownAs column c) st (column + (shownAs column c).length) ss
      else ⟨x, st⟩ ::
        (spansFrom s.pen (shownAs column c) (column + (shownAs column c).length) ss).1 := by
  simp only [spansAfter, spansFrom_char, set, if_true, List.nil_append]

/-- Strokes that come from the same text make the same spans exactly when they agree. -/
theorem spansAfter_eq_iff (ss : List Segment) {x : Text} (hx : x ≠ []) {st : Style}
    {s t : Stroke} (hs : s.holds = true → s.pen.shown = st) (ht : t.holds = true → t.pen.shown = st)
    (column : Nat) :
    s.spansAfter x st column ss = t.spansAfter x st column ss ↔ s.agree t ss = true := by
  induction ss generalizing x st s t column with
  | nil => simp [spansAfter_nil hx hs, spansAfter_nil hx ht, agree]
  | cons seg ss ih =>
    cases seg with
    | escape e =>
      rw [spansAfter_escape hx hs, spansAfter_escape hx ht, agree]
      exact ih hx (see_shown hs e) (see_shown ht e) column
    | char c =>
      by_cases hc : isShown c = true
      · have hy : shownAs column c ≠ [] := by
          intro h
          rw [shownAs_eq_nil_iff, hc] at h
          cases h
        rw [spansAfter_char, spansAfter_char, agree, if_pos hc]
        generalize shownAs column c = y at hy
        generalize column + y.length = column
        cases hsh : s.holds with
        | true =>
          cases hth : t.holds with
          | true =>
            have hxy : x ++ y ≠ [] := by simp [hx]
            have hss : s.set.holds = true → s.set.pen.shown = st := fun _ => hs hsh
            have hts : t.set.holds = true → t.set.pen.shown = st := fun _ => ht hth
            have hst : s.pen.shown = t.pen.shown := (hs hsh).trans (ht hth).symm
            simpa [hst] using ih hxy hss hts column
          | false => simpa [set, spansAfter] using spansFrom_append_ne hx hy s.pen column ss st _
        | false =>
          cases hth : t.holds with
          | true =>
            simpa [set, spansAfter] using (spansFrom_append_ne hx hy t.pen column ss st _).symm
          | false =>
            simp only [Bool.false_eq_true, if_false, List.cons.injEq, true_and, BEq.rfl,
              Bool.and_true]
            by_cases hst : s.pen.shown = t.pen.shown
            · have hss : s.set.holds = true → s.set.pen.shown = t.pen.shown := fun _ => hst
              have hts : t.set.holds = true → t.set.pen.shown = t.pen.shown := fun _ => rfl
              simpa [hst, spansAfter, set] using ih hy hss hts column
            · obtain ⟨a, as, ha⟩ := spansFrom_of_held hy s.pen column ss
              obtain ⟨b, bs, hb⟩ := spansFrom_of_held hy t.pen column ss
              simp [ha, hb, hst]
      · have hy : shownAs column c = [] := (shownAs_eq_nil_iff column c).2 (by simpa using hc)
        have hsame : ∀ r : Stroke, r.spansAfter x st column (.char c :: ss) =
            r.spansAfter x st column ss := by
          intro r
          rw [spansAfter_char, hy]
          simp [spansAfter, set]
        rw [hsame, hsame, agree, if_neg hc]
        exact ih hx hs ht column

end Stroke

/-! ## Two pens on lines -/

namespace Pen

/-- Two pens show every line alike. -/
def agree : Pen → Pen → List Text → Bool
  | _, _, [] => true
  | p, q, l :: ls =>
    Stroke.agree ⟨p, false⟩ ⟨q, false⟩ l.segments &&
      agree (p.after l.segments) (q.after l.segments) ls

theorem spans_eq_iff (p q : Pen) (ss : List Segment) :
    (spansFrom p [] 0 ss).1 = (spansFrom q [] 0 ss).1 ↔
      Stroke.agree ⟨p, false⟩ ⟨q, false⟩ ss = true := by
  have hx : ['x'] ≠ [] := by simp
  have hp : (⟨p, false⟩ : Stroke).holds = true → p.shown = .plain := fun h => by cases h
  have hq : (⟨q, false⟩ : Stroke).holds = true → q.shown = .plain := fun h => by cases h
  have h := Stroke.spansAfter_eq_iff ss hx hp hq 0
  rw [← h]
  simp [Stroke.spansAfter]

end Pen

theorem linesSpans_cons (p : Pen) (l : Text) (ls : List Text) :
    linesSpans p (l :: ls) =
      (spansFrom p [] 0 l.segments).1 :: linesSpans (p.after l.segments) ls := by
  rw [linesSpans, ← spansFrom_snd p [] 0 l.segments]

/-- Two pens make the same spans exactly when they agree. -/
theorem linesSpans_eq_iff (p q : Pen) (ls : List Text) :
    linesSpans p ls = linesSpans q ls ↔ p.agree q ls = true := by
  induction ls generalizing p q with
  | nil => simp [linesSpans, Pen.agree]
  | cons l ls ih =>
    rw [linesSpans_cons, linesSpans_cons, List.cons.injEq, Pen.spans_eq_iff, ih, Pen.agree,
      Bool.and_eq_true]

theorem length_linesSpans (p : Pen) (ls : List Text) : (linesSpans p ls).length = ls.length := by
  induction ls generalizing p with
  | nil => rfl
  | cons l ls ih => rw [linesSpans_cons, List.length_cons, List.length_cons, ih]

/-- The pen is carried from the lines before to the lines after. -/
theorem linesSpans_append (p : Pen) (a b : List Text) :
    linesSpans p (a ++ b) = linesSpans p a ++ linesSpans (p.afterLines a) b := by
  induction a generalizing p with
  | nil => rfl
  | cons l a ih => rw [List.cons_append, linesSpans_cons, linesSpans_cons, ih]; rfl

/-! ## Pages -/

/-- Each page looks the same to a plain pen and to the pen carried over from the pages before it,
which starts out as `p`. -/
def pagesAgree : Pen → List Page → Bool
  | _, [] => true
  | p, page :: pages => p.agree .initial page && pagesAgree (p.afterLines page) pages

theorem linesSpans_flatten_iff (p : Pen) (pages : List Page) :
    pages.flatMap pageSpans = linesSpans p pages.flatten ↔ pagesAgree p pages = true := by
  induction pages generalizing p with
  | nil => simp [linesSpans, pagesAgree]
  | cons page pages ih =>
    have hlen : (pageSpans page).length = (linesSpans p page).length := by
      rw [pageSpans, length_linesSpans, length_linesSpans]
    rw [List.flatMap_cons, List.flatten_cons, linesSpans_append, pagesAgree, Bool.and_eq_true,
      ← linesSpans_eq_iff, ← ih]
    constructor
    · intro h
      obtain ⟨h1, h2⟩ := List.append_inj h hlen
      exact ⟨h1.symm, h2⟩
    · intro h
      rcases h with ⟨h1, h2⟩
      rw [h1, h2]
      rfl

/-- **Paging keeps styles exactly when nothing open is shown past a page boundary.** The pages of
lines, shown one by one, look as the same lines shown in one run if and only if each page looks
the same to a plain pen and to the pen carried over from the pages before it. -/
theorem flatMap_pageSpans_paginate_iff (ls : List Text) (height : Nat) :
    (paginate height ls).flatMap pageSpans = pageSpans (paginate height ls).flatten ↔
      pagesAgree .initial (paginate height ls) = true :=
  linesSpans_flatten_iff .initial (paginate height ls)

/-- Bold text of a manual page that is filled over two lines, with one line to a page: the second
page shows its part plain. -/
theorem pageSpans_bold_over_boundary :
    let ls := reflow .ansi .man 6 ".P\n.B ab cd\n".toList
    (paginate 1 ls).flatMap pageSpans ≠ pageSpans (paginate 1 ls).flatten := by
  decide +kernel

end TextPager
