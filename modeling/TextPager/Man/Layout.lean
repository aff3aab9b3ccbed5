import TextPager.Man.Block
import TextPager.Man.Styles
import TextPager.Text.Fill
import TextPager.Text.Uppercase

/-!
# Page layout

A page is laid out token by token. The left margin moves only with shifts and goes back to the
edge at a section; the indent of paragraphs is what the last one set. A token is set in the
columns right of the margin, and the margin then stands before each of its lines that is not
blank. Inside running text a token is a phrase.

**Results.**
* `Token.layout_shiftIn`, `Token.layout_shiftOut`: a shift sets no line.
* `tagLines_nil`: without tags a paragraph is its indented lines.
-/
namespace TextPager.Man

/-- Columns of a page unless they were asked for. -/
def defaultWidth : Nat := 80

/-- Indent of the body of a section. -/
def sectionIndent : Nat := 4

/-- Lead of the heading line. -/
def HeadingRank.lead : HeadingRank → Nat
  | .major => 0
  | .minor => 2

/-- Lines moved right by `n` columns. -/
def indentLines (n : Nat) (ls : List Text) : List Text := ls.map (Text.spaces n ++ ·)

/-- Three fields across a line; the gap on the right takes the odd column. -/
def spread (left middle right : Text) (width : Nat) : Text :=
  let spare := width - (left.width + middle.width + right.width)
  left ++ Text.spaces (spare / 2) ++ middle ++ Text.spaces (spare - spare / 2) ++ right

namespace Title

/-- The name of the page and its chapter, in upper case. -/
def name (t : Title) : Text :=
  if t.chapter.isEmpty then t.title.upper
  else t.title.upper ++ ['('] ++ t.chapter.upper ++ [')']

/-- The line at the head of the page and the blank lines after it. -/
def header (t : Title) (width : Nat) : List Text :=
  [spread t.name t.headerMiddle t.name width, [], [], []]

/-- The blank lines before the line at the foot of the page, and that line. -/
def footer (t : Title) (width : Nat) : List Text :=
  [[], [], [], spread t.footerInside t.footerMiddle t.name width]

end Title

/-- The lines of a tagged paragraph. Every tag but the last stands alone; the last one shares its
line with the first line of the body if it is narrower than the indent. -/
def tagLines (tags body : List Text) (indent : Nat) : List Text :=
  match tags.getLast? with
  | none => indentLines indent body
  | some last =>
    tags.dropLast ++
      match body with
      | first :: rest =>
        if last.width < indent then (last.pad indent ++ first) :: indentLines indent rest
        else last :: indentLines indent body
      | [] => [last]

/-- A paragraph filled beside its indent. At least one column is left for the text; blank tags
are left out. -/
def paragraphLines (tags : List Text) (body : Text) (width indent : Nat) : List Text :=
  let indent := min indent (width - 1)
  tagLines (tags.filter (!·.isBlank)) (body.wrap (width - indent)) indent

/-- The lines of one command; the lines after the first stand under its first option. -/
def commandLines (s : Styles) (command : Text) (units : List Text) (width : Nat) : List Text :=
  let hang := command.width + 1
  match Text.fillHanging (s.apply .bold command :: units) width (width - hang) with
  | [] => []
  | first :: rest => first :: indentLines hang rest

/-- An option and its argument between brackets. -/
def optionText (s : Styles) (name : Text) : Option Text → Text
  | some a => ['['] ++ s.apply .bold name ++ [' '] ++ s.apply .underline a ++ [']']
  | none => ['['] ++ s.apply .bold name ++ [']']

/-- What stands before the address in a link's target. -/
def LinkKind.scheme : LinkKind → Text
  | .email => "mailto:".toList
  | .url => []

/-- A link: its text, or the address if it has none, and the punctuation after it. -/
def linkText (s : Styles) (kind : LinkKind) (address : Text) (contents : Text)
    (punctuation : Text) : Text :=
  let words := Text.joinWords contents.words
  let shown := if words.isEmpty then address else words
  s.hyperlink (kind.scheme ++ address) shown ++ punctuation

namespace Token

/-- The indent of the paragraphs after the token. -/
def indentAfter (indent : Nat) : Token → Nat
  | heading .. | paragraph _ => defaultIndent
  | indented _ i _ | tagged _ i _ => i.getD indent
  | _ => indent

/-- A token that stands in running text as it is. -/
def isPhrase : Token → Bool
  | text _ | unknown _ | option .. | link .. | font .. => true
  | _ => false

/-- A token in running text, given the lines it is set in: a phrase as it is, and the lines of
any other token without the newlines at their end. -/
def inText (t : Token) (ls : List Text) : Text :=
  if t.isPhrase then Text.joinLines ls else (Text.ended ls).dropEndWhile (· == '\n')

def isSynopsis : Token → Bool
  | synopsis .. => true
  | _ => false

end Token

mutual

/-- The lines a token is set in, at a width and with the indent its surroundings give. -/
def Token.layout (s : Styles) : Token → Nat → Nat → List Text
  | .text line, _, _ => [line]
  | .unknown line, _, _ => [line]
  | .title t, width, _ => t.header width
  | .heading rank h contents, width, _ =>
    (Text.spaces rank.lead ++ s.apply .bold h) ::
      sectionLines s contents (max (width - sectionIndent) 1) []
  | .paragraph contents, width, _ =>
    paragraphLines [] (Text.joinWords (phrases s contents width)) width defaultIndent
  | .indented tag i contents, width, indent =>
    paragraphLines tag.toList (Text.joinWords (phrases s contents width)) width (i.getD indent)
  | .tagged tags i contents, width, indent =>
    paragraphLines (phrases s tags width) (Text.joinWords (phrases s contents width)) width
      (i.getD indent)
  | .verbatim ls, width, _ => (phrases s ls width).map (·.truncate width)
  | .shiftIn _, _, _ => []
  | .shiftOut _, _, _ => []
  | .synopsis command contents, width, _ => synopsisLines s contents width command []
  | .option name argument, _, _ => [optionText s name argument]
  | .link kind address contents punctuation, width, _ =>
    [linkText s kind address (Text.joinWords (phrases s contents width)) punctuation]
  | .font f t, _, _ => [f.render s t]

/-- Tokens in running text. -/
def phrases (s : Styles) : List Token → Nat → List Text
  | [], _ => []
  | t :: ts, width => t.inText (t.layout s width defaultIndent) :: phrases s ts width

/-- The body of a section, given the phrases that wait to be filled. A synopsis keeps its lines;
what stands between two of them is filled as one paragraph. -/
def sectionLines (s : Styles) : List Token → Nat → List Text → List Text
  | [], width, prose => indentLines sectionIndent ((Text.joinWords prose).wrap width)
  | t :: ts, width, prose =>
    if t.isSynopsis then
      indentLines sectionIndent ((Text.joinWords prose).wrap width) ++
        indentLines sectionIndent (Text.ended (t.layout s width defaultIndent)).lines ++
        sectionLines s ts width []
    else sectionLines s ts width (prose ++ [t.inText (t.layout s width defaultIndent)])

/-- The lines of a synopsis, given the command in progress and its units so far. -/
def synopsisLines (s : Styles) : List Token → Nat → Text → List Text → List Text
  | [], width, command, units => commandLines s command units width
  | .synopsis next contents :: ts, width, command, units =>
    commandLines s command units width ++
      synopsisLines s ts width next (phrases s contents width)
  | t :: ts, width, command, units =>
    synopsisLines s ts width command (units ++ [t.inText (t.layout s width defaultIndent)])

end

/-- A text with spaces before each of its lines that is not blank. -/
def withMargin (margin : Nat) (t : Text) : Text :=
  Text.joinLines ((t.piecesAt '\n').map fun l => if l.isBlank then l else Text.spaces margin ++ l)

/-- The text of one token right of the margin. A block that sets any line ends with a blank one;
at least one column is left for the text. -/
def Token.render (s : Styles) (width margin indent : Nat) (t : Token) : Text :=
  let margin := min margin (width - 1)
  let ls := t.layout s (width - margin) indent
  withMargin margin (Text.ended ls) ++ (if t.isBlock && !ls.isEmpty then ['\n'] else [])

/-- The margin a token is set at. -/
def Token.marginAt (margin : Nat) : Token → Nat
  | .heading .major _ _ => 0
  | _ => margin

/-- Tokens set one after the other, from a margin and an indent. -/
def renderFrom (s : Styles) (width : Nat) : Nat → Nat → List Token → Text
  | _, _, [] => []
  | margin, indent, .shiftIn step :: ts =>
    renderFrom s width (min (margin + step) (wordLimit - 1)) indent ts
  | margin, indent, .shiftOut step :: ts => renderFrom s width (margin - step) indent ts
  | margin, indent, t :: ts =>
    let margin := t.marginAt margin
    t.render s width margin indent ++ renderFrom s width margin (t.indentAfter indent) ts

/-- The title of a title token. -/
def Token.title? : Token → Option Title
  | .title t => some t
  | _ => none

/-- The foot of the page, if it has a title; the last title counts. -/
def footText (tokens : List Token) (width : Nat) : Text :=
  match (tokens.filterMap Token.title?).getLast? with
  | some t => Text.ended (t.footer width)
  | none => []

/-- The text of a page at a width of at least one column. -/
def render (s : Styles) (width : Nat) (tokens : List Token) : Text :=
  let width := max width 1
  renderFrom s width 0 defaultIndent tokens ++ footText tokens width

/-- Reads a page and lays it out. -/
def renderPage (s : Styles) (width : Nat) (page : Text) : Text := render s width (tokens page)

/-- The text of a page at the width that was asked for, if one was. -/
def renderWithin (s : Styles) (width : Option Nat) (tokens : List Token) : Text :=
  render s (width.getD defaultWidth) tokens

/-- Reads a page and lays it out at the width that was asked for, if one was. -/
def renderPageWithin (s : Styles) (width : Option Nat) (page : Text) : Text :=
  renderWithin s width (tokens page)

/-! ## Shifts and tags -/

theorem Token.layout_shiftIn (s : Styles) (step width indent : Nat) :
    (Token.shiftIn step).layout s width indent = [] := by
  simp [Token.layout]

theorem Token.layout_shiftOut (s : Styles) (step width indent : Nat) :
    (Token.shiftOut step).layout s width indent = [] := by
  simp [Token.layout]

theorem tagLines_nil (body : List Text) (indent : Nat) :
    tagLines [] body indent = indentLines indent body := rfl

end TextPager.Man
