import TextPager.Text.Basic

/-!
# Segments

A text meant for a terminal is a sequence of visible characters and escape sequences. An escape
sequence takes no column. Five forms are known, by what follows the escape character:

* `[` runs to the first character from `@` to `~`;
* `]` runs to a bell, or to a backslash that directly follows an escape character;
* `(` and `)` take one more character;
* any other character stands alone;
* nothing, at the end of the text.

A sequence that the text ends in is one segment as it stands.

`Scan` is the automaton behind these rules. Everything measured in columns goes through
`Text.segments`.

**Results.**
* `Text.ofSegments_segments`: the segments of a text spell the text.
* `Text.segments_char`, `Text.segments_escape`: a visible character is never the escape character,
  and an escape sequence begins with it.
-/
namespace TextPager

/-- The escape character, which opens every escape sequence. -/
def esc : Char := '\x1b'

/-- The bell character, which may close an operating system command. -/
def bell : Char := '\x07'

/-- Where a scan stands between two characters. -/
inductive Scan where
  /-- Outside every escape sequence. -/
  | ground
  /-- Just after the escape character. -/
  | opened
  /-- Inside a control sequence. -/
  | control
  /-- Inside an operating system command; says whether the last character was an escape. -/
  | command (afterEsc : Bool)
  /-- Before the character that selects a character set. -/
  | charset
  deriving DecidableEq, Repr

/-- The state after one more character. -/
def Scan.next : Scan → Char → Scan
  | ground, c => if c = esc then opened else ground
  | opened, c =>
    if c = '[' then control
    else if c = ']' then command false
    else if c = '(' ∨ c = ')' then charset
    else ground
  | control, c => if '@' ≤ c ∧ c ≤ '~' then ground else control
  | command afterEsc, c =>
    if c = bell ∨ (afterEsc = true ∧ c = '\\') then ground else command (c == esc)
  | charset, _ => ground

/-- A visible character, or one whole escape sequence. -/
inductive Segment where
  | char (c : Char)
  | escape (sequence : Text)
  deriving DecidableEq, Repr

namespace Segment

/-- The characters a segment stands for. -/
def toText : Segment → Text
  | char c => [c]
  | escape e => e

def isChar : Segment → Bool
  | char _ => true
  | escape _ => false

end Segment

namespace Text

/-- The text that segments spell. -/
def ofSegments (ss : List Segment) : Text := ss.flatMap Segment.toText

/-- What is left of the escape sequence the scan stands in, and the segments after it. -/
def segmentsFrom : Scan → Text → Text × List Segment
  | _, [] => ([], [])
  | s, c :: t =>
    let (pending, rest) := segmentsFrom (s.next c) t
    if s = .ground then
      if s.next c = .ground then ([], .char c :: rest) else ([], .escape (c :: pending) :: rest)
    else (c :: pending, rest)

/-- The segments of a text, in order. -/
def segments (t : Text) : List Segment := (segmentsFrom .ground t).2

/-- Columns the text takes. -/
def width (t : Text) : Nat := t.segments.countP Segment.isChar

/-- The text without its escape sequences. -/
def plain (t : Text) : Text := ofSegments (t.segments.filter Segment.isChar)

/-- The first `n` visible characters, with every escape sequence. -/
def keepVisible : Nat → List Segment → List Segment
  | _, [] => []
  | n, .escape e :: ss => .escape e :: keepVisible n ss
  | 0, .char _ :: ss => keepVisible 0 ss
  | n + 1, .char c :: ss => .char c :: keepVisible n ss

/-- The text cut to `n` columns. Escape sequences after the cut stay, so a style opened before it
is still closed. -/
def truncate (t : Text) (n : Nat) : Text := ofSegments (keepVisible n t.segments)

/-- The text filled with spaces to `n` columns; a wider text stays as it is. -/
def pad (t : Text) (n : Nat) : Text := t ++ spaces (n - t.width)

/-- Segments split just before the visible character that follows the first `n`. Escape sequences
at the split belong to the first part. -/
def splitVisible : Nat → List Segment → List Segment × List Segment
  | _, [] => ([], [])
  | n, .escape e :: ss => let (a, b) := splitVisible n ss; (.escape e :: a, b)
  | 0, .char c :: ss => ([], .char c :: ss)
  | n + 1, .char c :: ss => let (a, b) := splitVisible n ss; (.char c :: a, b)

/-! ## Segments spell the text -/

theorem ofSegments_cons (s : Segment) (ss : List Segment) :
    ofSegments (s :: ss) = s.toText ++ ofSegments ss := rfl

theorem ofSegments_append (a b : List Segment) :
    ofSegments (a ++ b) = ofSegments a ++ ofSegments b := List.flatMap_append

theorem ofSegments_segmentsFrom (s : Scan) (t : Text) :
    (segmentsFrom s t).1 ++ ofSegments (segmentsFrom s t).2 = t ∧
      (s = .ground → (segmentsFrom s t).1 = []) := by
  induction t generalizing s with
  | nil => exact ⟨rfl, fun _ => rfl⟩
  | cons c t ih =>
    obtain ⟨h1, h2⟩ := ih (s.next c)
    simp only [segmentsFrom]
    split
    · split
      · rename_i hn
        rw [h2 hn] at h1
        exact ⟨congrArg (c :: ·) h1, fun _ => rfl⟩
      · exact ⟨congrArg (c :: ·) h1, fun _ => rfl⟩
    · exact ⟨congrArg (c :: ·) h1, fun h => absurd h ‹_›⟩

/-- The segments of a text spell the text. -/
theorem ofSegments_segments (t : Text) : ofSegments t.segments = t := by
  obtain ⟨h1, h2⟩ := ofSegments_segmentsFrom .ground t
  rw [h2 rfl] at h1
  exact h1

theorem segmentsFrom_forms (s : Scan) (t : Text) {g : Segment} (h : g ∈ (segmentsFrom s t).2) :
    (∀ c, g = .char c → c ≠ esc) ∧ (∀ e, g = .escape e → e.head? = some esc) := by
  induction t generalizing s with
  | nil => cases h
  | cons c t ih =>
    simp only [segmentsFrom] at h
    split at h
    · rename_i hs
      subst hs
      split at h
      · rename_i hn
        rcases List.mem_cons.1 h with rfl | h
        · refine ⟨?_, fun e he => by cases he⟩
          rintro d hd rfl
          cases hd
          simp [Scan.next] at hn
        · exact ih _ h
      · rename_i hn
        rcases List.mem_cons.1 h with rfl | h
        · refine ⟨fun d hd => (by cases hd), ?_⟩
          intro e he
          cases he
          by_cases hc : c = esc
          · simp [hc]
          · simp [Scan.next, hc] at hn
        · exact ih _ h
    · exact ih _ h

/-- A visible character is never the escape character. -/
theorem segments_char {t : Text} {c : Char} (h : .char c ∈ t.segments) : c ≠ esc :=
  (segmentsFrom_forms .ground t h).1 c rfl

/-- An escape sequence begins with the escape character. -/
theorem segments_escape {t e : Text} (h : .escape e ∈ t.segments) : e.head? = some esc :=
  (segmentsFrom_forms .ground t h).2 e rfl

theorem width_eq_length_filter (t : Text) :
    t.width = (t.segments.filter Segment.isChar).length := List.countP_eq_length_filter

end Text

end TextPager
