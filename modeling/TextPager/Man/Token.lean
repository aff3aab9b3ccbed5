import TextPager.Text.Basic

/-!
# Manual page tokens

A manual page is a sequence of tokens. Some hold the tokens inside them: a heading its section, a
paragraph its lines, a synopsis its options. `Token` is the tree that a page is read into and that
it is laid out from.

**Results.**
* `Font.ofName?_name`: a font macro is found by its name.
* `Token.isBlock_of_heading`: every heading is separated from what follows.
-/
namespace TextPager.Man

/-- Indent of a paragraph's body, in columns, unless one was asked for. -/
def defaultIndent : Nat := 4

/-- Emphasis asked for by a font macro. A pair alternates from word to word. -/
inductive Font where
  | bold | italic | small | smallBold
  | boldItalic | boldRoman | italicBold | italicRoman | romanBold | romanItalic
  deriving DecidableEq, Repr

namespace Font

def all : List Font :=
  [bold, italic, small, smallBold, boldItalic, boldRoman, italicBold, italicRoman, romanBold,
    romanItalic]

/-- The name of the macro that asks for the font. -/
def name : Font → String
  | bold => "B"
  | italic => "I"
  | small => "SM"
  | smallBold => "SB"
  | boldItalic => "BI"
  | boldRoman => "BR"
  | italicBold => "IB"
  | italicRoman => "IR"
  | romanBold => "RB"
  | romanItalic => "RI"

/-- The font of a macro name; upper and lower case differ. -/
def ofName? (n : Text) : Option Font := all.find? (fun f => f.name.toList == n)

/-- Without an argument the macro styles the next line. -/
def takesNextLine : Font → Bool
  | bold | italic | small | smallBold => true
  | _ => false

theorem ofName?_name (f : Font) : ofName? f.name.toList = some f := by
  cases f <;> decide

end Font

/-- The fields of a page's title line. -/
structure Title where
  title : Text
  chapter : Text
  footerMiddle : Text
  footerInside : Text
  headerMiddle : Text
  deriving DecidableEq, Repr

/-- The fields from macro arguments in order; missing ones are empty. -/
def Title.ofArgs (args : List Text) : Title :=
  let arg (i : Nat) := args.getD i []
  ⟨arg 0, arg 1, arg 2, arg 3, arg 4⟩

/-- A section, or a subsection. -/
inductive HeadingRank where
  | major | minor
  deriving DecidableEq, Repr

/-- What the address of a link names. -/
inductive LinkKind where
  | email | url
  deriving DecidableEq, Repr

/-- One unit of a manual page. -/
inductive Token where
  /-- A line of text. -/
  | text (line : Text)
  /-- The line of an unknown macro, without its dot. -/
  | unknown (line : Text)
  | title (title : Title)
  | heading (rank : HeadingRank) (heading : Text) (contents : List Token)
  | paragraph (contents : List Token)
  | indented (tag : Option Text) (indent : Option Nat) (contents : List Token)
  /-- A paragraph under one or more tags. -/
  | tagged (tags : List Token) (indent : Option Nat) (contents : List Token)
  /-- Lines kept as they stand. -/
  | verbatim (lines : List Token)
  /-- Moves the left margin to the right. -/
  | shiftIn (step : Nat)
  /-- Moves the left margin back. -/
  | shiftOut (step : Nat)
  /-- A command with its options; a synopsis inside it starts a further command. -/
  | synopsis (command : Text) (contents : List Token)
  | option (name : Text) (argument : Option Text)
  | link (kind : LinkKind) (address : Text) (contents : List Token) (punctuation : Text)
  | font (font : Font) (text : Text)
  deriving Repr

/-- Blocks are separated from what follows by a blank line. -/
def Token.isBlock : Token → Bool
  | heading .. | paragraph _ | indented .. | tagged .. | verbatim _ | synopsis .. => true
  | _ => false

theorem Token.isBlock_of_heading (r : HeadingRank) (h : Text) (cs : List Token) :
    (Token.heading r h cs).isBlock = true := rfl

end TextPager.Man
