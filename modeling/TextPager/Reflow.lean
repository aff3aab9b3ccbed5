import TextPager.Man.Layout

/-!
# Reflow

A document is broken into display lines in one of four ways. Detection takes single newlines for
hard wrapping and fills whole paragraphs anew; bullet lines stand alone as they are. Long mode
only wraps lines wider than the page. Man mode lays out a manual page. Without wrapping every
line is cut at the page edge.

**Results.**
* `isBullet_iff`: a bullet line is blanks, a star and a blank.
* `reflow_zero`: a width of 0 counts as 1.
-/
namespace TextPager

/-- How a document is broken into display lines. -/
inductive WrapMode where
  | detect | long | man | noWrap
  deriving DecidableEq, Repr

namespace WrapMode

def all : List WrapMode := [detect, long, man, noWrap]

/-- The name in configuration files. -/
def name : WrapMode → String
  | detect => "detect"
  | long => "long"
  | man => "man"
  | noWrap => "no_wrap"

end WrapMode

/-- White space, a star and white space begin the line. -/
def isBullet (line : Text) : Bool :=
  match line.trimStart with
  | '*' :: c :: _ => isSpace c
  | _ => false

/-- A stretch of a document in detection. -/
inductive Stretch where
  /-- Lines of one paragraph. -/
  | prose (lines : List Text)
  | bullet (line : Text)
  deriving DecidableEq, Repr

/-- The stretches of lines, given the lines of the paragraph in progress. Blank lines and bullet
lines end a paragraph. -/
def stretches : List Text → List Text → List Stretch
  | prose, [] => if prose.isEmpty then [] else [.prose prose]
  | prose, line :: ls =>
    let before := if prose.isEmpty then [] else [Stretch.prose prose]
    if line.isBlank then before ++ stretches [] ls
    else if isBullet line then before ++ .bullet line :: stretches [] ls
    else stretches (prose ++ [line]) ls

/-- The display lines of a stretch and the blank line after it. -/
def Stretch.display (width : Nat) : Stretch → List Text
  | prose ls => (Text.joinWords ls).wrap width ++ [[]]
  | bullet line => [line, []]

def reflowDetect (t : Text) (width : Nat) : List Text :=
  (stretches [] (t.piecesAt '\n')).flatMap (Stretch.display width)

/-- A line of the document in long mode. -/
def wrapLong (width : Nat) (line : Text) : List Text :=
  if line.width ≤ width then [line] else line.wrapWith true width

def reflowLong (t : Text) (width : Nat) : List Text := (t.piecesAt '\n').flatMap (wrapLong width)

def reflowNoWrap (t : Text) (width : Nat) : List Text :=
  (t.piecesAt '\n').map fun line => (line.truncate width).trimEnd

/-- The display lines of a document. Only manual pages are styled. -/
def reflow (s : Man.Styles) (mode : WrapMode) (width : Nat) (t : Text) : List Text :=
  let width := max width 1
  match mode with
  | .detect => reflowDetect t width
  | .long => reflowLong t width
  | .man => (Man.renderPageWithin s (some width) t).piecesAt '\n'
  | .noWrap => reflowNoWrap t width

theorem reflow_zero (s : Man.Styles) (mode : WrapMode) (t : Text) :
    reflow s mode 0 t = reflow s mode 1 t := rfl

/-- A bullet line is blanks, a star and a blank. -/
theorem isBullet_iff (line : Text) :
    isBullet line = true ↔
      ∃ lead c rest, line = lead ++ '*' :: c :: rest ∧ (∀ d ∈ lead, isSpace d = true) ∧
        isSpace c = true := by
  constructor
  · intro h
    refine ⟨line.takeWhile isSpace, ?_⟩
    unfold isBullet Text.trimStart at h
    split at h
    · rename_i c rest hl
      refine ⟨c, rest, ?_, fun d hd => ?_, h⟩
      · rw [← hl, List.takeWhile_append_dropWhile]
      · have := List.all_takeWhile (p := isSpace) (l := line)
        exact List.all_eq_true.1 this d hd
    · cases h
  · intro h
    rcases h with ⟨lead, c, rest, rfl, hlead, hc⟩
    have hstar : isSpace '*' = false := by decide
    have : (lead ++ '*' :: c :: rest).trimStart = '*' :: c :: rest := by
      unfold Text.trimStart
      rw [List.dropWhile_append_of_pos hlead, List.dropWhile_cons_of_neg (by simp [hstar])]
    simp [isBullet, this, hc]

end TextPager
