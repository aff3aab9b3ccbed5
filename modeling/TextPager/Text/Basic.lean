/-!
# Text

A text, a line and a word are lists of characters. This module holds the white-space and control
classes, cutting a text at characters (`pieces`), and what is read from the cut: words and lines.

**Results.**
* `pieces_ne_nil`: a text always has at least one piece.
* `not_mem_of_mem_pieces`: a piece holds none of the characters the text was cut at.
* `isSpace_of_isWhitespace`: every ASCII blank is white space here.
-/
namespace TextPager

/-- The characters of a text, in order. -/
abbrev Text := List Char

/-- White space: the characters with the Unicode property White_Space. -/
def isSpace (c : Char) : Bool :=
  let n := c.toNat
  (9 ≤ n && n ≤ 13) || n == 0x20 || n == 0x85 || n == 0xA0 || n == 0x1680 ||
    (0x2000 ≤ n && n ≤ 0x200A) || n == 0x2028 || n == 0x2029 || n == 0x202F || n == 0x205F ||
    n == 0x3000

/-- Control characters: the two ranges of the category Cc. -/
def isControl (c : Char) : Bool :=
  c.toNat < 0x20 || (0x7F ≤ c.toNat && c.toNat ≤ 0x9F)

/-- An ASCII letter, of either case. -/
def isLetter (c : Char) : Bool :=
  ('a' ≤ c && c ≤ 'z') || ('A' ≤ c && c ≤ 'Z')

theorem isSpace_of_isWhitespace {c : Char} (h : c.isWhitespace = true) : isSpace c = true := by
  simp only [Char.isWhitespace, Bool.or_eq_true, decide_eq_true_eq] at h
  rcases h with ((h | h) | h) | h <;> subst h <;> decide

namespace Text

/-- `n` spaces. -/
def spaces (n : Nat) : Text := List.replicate n ' '

/-- The text cut at every character of a class; the cut characters are dropped. -/
def pieces (cut : Char → Bool) (t : Text) : List Text :=
  t.foldr (fun c ps => if cut c then [] :: ps else match ps with
    | [] => [[c]]
    | p :: rest => (c :: p) :: rest) [[]]

/-- The text cut at one character. -/
def piecesAt (sep : Char) (t : Text) : List Text := t.pieces (· == sep)

/-- The words: longest runs free of white space. -/
def words (t : Text) : List Text := (t.pieces isSpace).filter (fun w => !w.isEmpty)

/-- Words set with one space between neighbours. -/
def joinWords (ws : List Text) : Text := List.intercalate [' '] ws

/-- Lines set with one newline between neighbours. -/
def joinLines (ls : List Text) : Text := List.intercalate ['\n'] ls

/-- Lines, each ended by a newline. -/
def ended (ls : List Text) : Text := ls.flatMap (· ++ ['\n'])

/-- The text without its leading white space. -/
def trimStart (t : Text) : Text := t.dropWhile isSpace

/-- The text without the longest ending made of a class of characters. -/
def dropEndWhile (p : Char → Bool) (t : Text) : Text := (t.reverse.dropWhile p).reverse

/-- The text without its trailing white space. -/
def trimEnd (t : Text) : Text := t.dropEndWhile isSpace

def trim (t : Text) : Text := t.trimStart.trimEnd

/-- No character but white space. -/
def isBlank (t : Text) : Bool := t.all isSpace

/-- A line without the carriage return that ends it. -/
def dropReturn (l : Text) : Text := if l.getLast? = some '\r' then l.dropLast else l

/-- The lines of a text. A newline ends a line, together with a carriage return before it; what
follows the last newline is a line unless it is empty. -/
def lines (t : Text) : List Text :=
  let ps := t.piecesAt '\n'
  ps.dropLast.map dropReturn ++ (ps.getLast?.toList.filter fun l => !l.isEmpty)

/-! ## Pieces -/

@[simp]
theorem pieces_nil (cut : Char → Bool) : pieces cut [] = [[]] := rfl

theorem pieces_cons (cut : Char → Bool) (c : Char) (t : Text) :
    pieces cut (c :: t) = if cut c then [] :: pieces cut t else match pieces cut t with
      | [] => [[c]]
      | p :: rest => (c :: p) :: rest := rfl

theorem pieces_ne_nil (cut : Char → Bool) (t : Text) : pieces cut t ≠ [] := by
  cases t with
  | nil => simp
  | cons c t =>
    rw [pieces_cons]
    split
    · simp
    · split <;> simp

theorem not_mem_of_mem_pieces {cut : Char → Bool} {t p : Text} (h : p ∈ pieces cut t) {c : Char}
    (hc : c ∈ p) : cut c = false := by
  induction t generalizing p with
  | nil => simp at h; subst h; cases hc
  | cons d t ih =>
    rw [pieces_cons] at h
    split at h
    · rcases List.mem_cons.1 h with rfl | h
      · cases hc
      · exact ih h hc
    · rename_i hd
      split at h
      · simp at h; subst h; simp_all
      · rename_i q rest hq
        rcases List.mem_cons.1 h with rfl | h
        · rcases List.mem_cons.1 hc with rfl | hc
          · simpa using hd
          · exact ih (hq ▸ List.mem_cons_self) hc
        · exact ih (hq ▸ List.mem_cons_of_mem _ h) hc

end Text

end TextPager
