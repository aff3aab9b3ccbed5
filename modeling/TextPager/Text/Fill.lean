import TextPager.Text.Segment

/-!
# Filling lines

Greedy filling sets words on lines, one space between neighbours, and starts a new line when the
next word does not fit. The first line and the lines after it may have different widths. Widths
are columns, so escape sequences inside words are free.

Leading white space stays on the first line as a lead of spaces and counts towards its width; it
is dropped when the first word does not fit beside it. A word wider than a line overflows, or,
when words may be broken, fills what is left of the current line and runs on over as many lines
as it takes.

**Results.**
* `Filler.room_flush`: a flushed filler has its whole line to give, so a turn of breaking that
  only flushes is followed by one that places text.
* `Filler.breakTurn_progress`: with something left to place and a line of at least one column,
  two turns of breaking make the rest shorter.
-/
namespace TextPager

/-- Distance between tab stops. -/
def tabStop : Nat := 8

/-- The column after a character of leading white space: a tab runs to the next tab stop. -/
def columnAfter (column : Nat) (c : Char) : Nat :=
  if c = '\t' then column + (tabStop - column % tabStop) else column + 1

/-- Lines being filled. -/
structure Filler where
  /-- Finished lines, the latest first. -/
  done : List Text
  current : Text
  /-- Columns taken on the current line. -/
  used : Nat
  /-- Words on the current line; a line that holds only the lead has none. -/
  words : Nat
  /-- Columns of the first line. -/
  first : Nat
  /-- Columns of every other line. -/
  rest : Nat
  deriving DecidableEq, Repr

namespace Filler

/-- An empty first line after `lead` spaces. A line has at least one column. -/
def start (lead first rest : Nat) : Filler :=
  { done := [], current := Text.spaces lead, used := lead, words := 0,
    first := max first 1, rest := max rest 1 }

/-- Columns of the current line. -/
def width (f : Filler) : Nat := if f.done.isEmpty then f.first else f.rest

/-- Columns of the space before the next word. -/
def gap (f : Filler) : Nat := if f.words = 0 then 0 else 1

/-- Columns left for the next word. -/
def room (f : Filler) : Nat := f.width - (f.used + f.gap)

/-- Ends the current line. A line without words leaves nothing behind. -/
def flush (f : Filler) : Filler :=
  { f with done := if f.words = 0 then f.done else f.current :: f.done,
           current := [], used := 0, words := 0 }

/-- Drops a lead the next word does not fit beside. -/
def dropLead (f : Filler) (columns : Nat) : Filler :=
  if f.words = 0 ∧ f.width < f.used + columns then { f with current := [], used := 0 } else f

/-- Sets a word on the current line. -/
def append (f : Filler) (word : Text) (columns : Nat) : Filler :=
  { f with current := f.current ++ Text.spaces f.gap ++ word,
           used := f.used + f.gap + columns, words := f.words + 1 }

/-- Places a word of so many columns, on a new line if it does not fit on the current one. -/
def push (f : Filler) (word : Text) (columns : Nat) : Filler :=
  let f := if f.words ≠ 0 ∧ f.width < f.used + 1 + columns then f.flush else f
  (f.dropLead columns).append word columns

/-- One turn of breaking a word: on a full line, end it; else place as much of the rest as fits. -/
def breakTurn (f : Filler) (rest : List Segment) : Filler × List Segment :=
  if f.room = 0 then (f.flush, rest)
  else
    let (head, tail) := Text.splitVisible f.room rest
    (f.push (Text.ofSegments head) (head.countP Segment.isChar), tail)

/-- At most so many turns of breaking a word, fewer when nothing is left to place. -/
def breakTurns : Nat → Filler → List Segment → Filler
  | _, f, [] => f
  | 0, f, _ :: _ => f
  | n + 1, f, g :: gs => let (f, rest) := f.breakTurn (g :: gs); breakTurns n f rest

/-- Fills what is left of the current line with the start of a word and carries the rest over.
Two turns place at least one segment. -/
def pushBreaking (f : Filler) (word : Text) : Filler :=
  breakTurns (2 * word.segments.length) f word.segments

/-- Places a word, broken if it is wider than a line and words may be broken. -/
def place (breakWords : Bool) (f : Filler) (word : Text) : Filler :=
  if breakWords = true ∧ f.width < word.width then f.pushBreaking word
  else f.push word word.width

/-- The lines, in order. -/
def lines (f : Filler) : List Text := f.flush.done.reverse

end Filler

namespace Text

/-- Words filled into lines after a lead of spaces. -/
def fill (ws : List Text) (lead first rest : Nat) (breakWords : Bool) : List Text :=
  (ws.foldl (Filler.place breakWords) (Filler.start lead first rest)).lines

/-- Units filled into lines, the first line of its own width. Units are never split. -/
def fillHanging (units : List Text) (first rest : Nat) : List Text := fill units 0 first rest false

/-- Columns of a text's leading white space. -/
def leadColumns (t : Text) : Nat := (t.takeWhile isSpace).foldl columnAfter 0

/-- The words of a text filled to a width, its leading white space kept as a lead. -/
def wrapWith (breakWords : Bool) (t : Text) (n : Nat) : List Text :=
  fill t.words t.leadColumns n n breakWords

/-- The words of a text filled to a width; a word wider than a line overflows. -/
def wrap (t : Text) (n : Nat) : List Text := t.wrapWith false n

end Text

/-! ## Breaking makes progress -/

namespace Filler

theorem width_flush_pos (f : Filler) (hf : 0 < f.first) (hr : 0 < f.rest) : 0 < f.flush.width := by
  simp only [width, flush]
  split <;> split <;> assumption

theorem room_flush (f : Filler) : f.flush.room = f.flush.width := by
  simp [room, gap, flush]

end Filler

/-- A split loses nothing. -/
theorem Text.splitVisible_append (n : Nat) (ss : List Segment) :
    (splitVisible n ss).1 ++ (splitVisible n ss).2 = ss := by
  fun_induction splitVisible n ss <;> simp_all

/-- A split after at least one column takes something. -/
theorem Text.splitVisible_fst_ne_nil {n : Nat} {ss : List Segment} (hs : ss ≠ []) (hn : 0 < n) :
    (splitVisible n ss).1 ≠ [] := by
  fun_cases splitVisible n ss <;> simp_all

/-- With text left and at least one column to a line, two turns place at least one segment. -/
theorem Filler.breakTurn_progress (f : Filler) (rest : List Segment) (hrest : rest ≠ [])
    (hf : 0 < f.first) (hr : 0 < f.rest) :
    (f.breakTurn rest).2.length < rest.length ∨
      ((f.breakTurn rest).2 = rest ∧
        ((f.breakTurn rest).1.breakTurn rest).2.length < rest.length) := by
  have short : ∀ {n}, 0 < n → (Text.splitVisible n rest).2.length < rest.length := by
    intro n hn
    have h1 := congrArg List.length (Text.splitVisible_append n rest)
    have h2 := List.length_pos_iff.2 (Text.splitVisible_fst_ne_nil hrest hn)
    rw [List.length_append] at h1
    omega
  unfold breakTurn
  by_cases h : f.room = 0
  · right
    have hroom : 0 < f.flush.room := by rw [room_flush]; exact width_flush_pos f hf hr
    simp only [h, if_true, Nat.ne_of_gt hroom, if_false]
    exact ⟨trivial, short hroom⟩
  · left
    simp only [h, if_false]
    exact short (Nat.pos_of_ne_zero h)

end TextPager
