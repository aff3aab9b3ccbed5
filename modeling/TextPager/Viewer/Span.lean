import TextPager.Text.Segment
import TextPager.Text.Fill

/-!
# Spans

A page line is shown as spans, each of one style. Of the escape sequences only those that select
bold, underlined, reversed or plain text count, and those that begin and end a link; a link's
target is dropped and its text underlined. All other sequences and control characters are
swallowed, and a tab shows as spaces up to the next tab stop. Styles last across line ends, as
they do on a terminal.

**Results.**
* `spansFrom_text_ne_nil`: no span is empty.
-/
namespace TextPager

/-- Ways of showing a character. -/
structure Modifiers where
  bold : Bool
  underlined : Bool
  reversed : Bool
  deriving DecidableEq, Repr

namespace Modifiers

def none : Modifiers := ⟨false, false, false⟩
def justBold : Modifiers := ⟨true, false, false⟩
def justUnderlined : Modifiers := ⟨false, true, false⟩
def justReversed : Modifiers := ⟨false, false, true⟩

def union (a b : Modifiers) : Modifiers :=
  ⟨a.bold || b.bold, a.underlined || b.underlined, a.reversed || b.reversed⟩

def diff (a b : Modifiers) : Modifiers :=
  ⟨a.bold && !b.bold, a.underlined && !b.underlined, a.reversed && !b.reversed⟩

end Modifiers

/-- The modifiers a style turns on and those it turns off. -/
structure Style where
  added : Modifiers
  removed : Modifiers
  deriving DecidableEq, Repr

namespace Style

/-- The style that changes nothing. -/
def plain : Style := ⟨.none, .none⟩

def add (s : Style) (m : Modifiers) : Style := ⟨s.added.union m, s.removed.diff m⟩

def remove (s : Style) (m : Modifiers) : Style := ⟨s.added.diff m, s.removed.union m⟩

/-- The style after one parameter of a rendition sequence. -/
def select (s : Style) : Text → Style
  | [] | ['0'] => plain
  | ['1'] => s.add .justBold
  | ['4'] => s.add .justUnderlined
  | ['7'] => s.add .justReversed
  | ['2', '2'] => s.remove .justBold
  | ['2', '4'] => s.remove .justUnderlined
  | ['2', '7'] => s.remove .justReversed
  | _ => s

/-- The modifiers of a cell of this style drawn over others. -/
def onto (s : Style) (m : Modifiers) : Modifiers := (m.union s.added).diff s.removed

end Style

/-- What the escape sequences so far have selected. -/
structure Pen where
  style : Style
  inLink : Bool
  deriving DecidableEq, Repr

namespace Pen

def initial : Pen := ⟨.plain, false⟩

/-- The style text is shown in: links are underlined. -/
def shown (p : Pen) : Style := if p.inLink then p.style.add .justUnderlined else p.style

/-- The target in what follows the number of a link sequence: its parameters, a semicolon, the
target, and the terminator. -/
def linkTarget (rest : Text) : Text :=
  let body := rest.dropEndWhile (· == bell)
  let body := if ['\x1b', '\\'].isSuffixOf body then body.dropLast.dropLast else body
  (body.dropWhile (· != ';')).drop 1

/-- The pen after an escape sequence. -/
def apply (p : Pen) : Text → Pen
  | '\x1b' :: '[' :: rest =>
    if rest.getLast? = some 'm' then
      { p with style := (Text.piecesAt ';' rest.dropLast).foldl Style.select p.style }
    else p
  | '\x1b' :: ']' :: '8' :: ';' :: rest => { p with inLink := !(linkTarget rest).isEmpty }
  | _ => p

end Pen

/-- Text of one style. -/
structure Span where
  text : Text
  style : Style
  deriving DecidableEq, Repr

/-- The span of a text, unless it is empty. -/
def spanOf (t : Text) (s : Style) : List Span := if t.isEmpty then [] else [⟨t, s⟩]

/-- The spans of a line from the text held so far and its end column on, and the pen after
them. -/
def spansFrom : Pen → Text → Nat → List Segment → List Span × Pen
  | pen, held, _, [] => (spanOf held pen.shown, pen)
  | pen, held, column, .escape e :: ss =>
    let next := pen.apply e
    if next.shown = pen.shown then spansFrom next held column ss
    else
      let (spans, last) := spansFrom next [] column ss
      (spanOf held pen.shown ++ spans, last)
  | pen, held, column, .char c :: ss =>
    if c = '\t' then
      let stop := columnAfter column c
      spansFrom pen (held ++ Text.spaces (stop - column)) stop ss
    else if isControl c then spansFrom pen held column ss
    else spansFrom pen (held ++ [c]) (column + 1) ss

/-- The spans of lines shown with a pen. -/
def linesSpans : Pen → List Text → List (List Span)
  | _, [] => []
  | pen, line :: ls =>
    let (spans, next) := spansFrom pen [] 0 line.segments
    spans :: linesSpans next ls

/-- The spans of each line of a page. -/
def pageSpans (page : List Text) : List (List Span) := linesSpans .initial page

theorem spanOf_text_ne_nil {t : Text} {s : Style} {span : Span} (h : span ∈ spanOf t s) :
    span.text ≠ [] := by
  unfold spanOf at h
  split at h
  · cases h
  · rename_i ht
    cases List.mem_singleton.1 h
    simpa using ht

/-- No span is empty. -/
theorem spansFrom_text_ne_nil (pen : Pen) (held : Text) (column : Nat) (ss : List Segment)
    {span : Span} (h : span ∈ (spansFrom pen held column ss).1) : span.text ≠ [] := by
  fun_induction spansFrom pen held column ss with
  | case1 => exact spanOf_text_ne_nil h
  | case2 pen held column e ss next _ ih => exact ih h
  | case3 pen held column e ss next _ spans last hrest ih =>
    rcases List.mem_append.1 h with h | h
    · exact spanOf_text_ne_nil h
    · exact ih (by rw [hrest]; exact h)
  | case4 pen held column ss stop ih => exact ih h
  | case5 pen held column c ss _ _ ih => exact ih h
  | case6 pen held column c ss _ _ ih => exact ih h

end TextPager
