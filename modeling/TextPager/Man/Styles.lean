import TextPager.Man.Token

/-!
# Styles

A page is styled by escape sequences, or not at all when the output is no terminal. A style table
says which sequences begin bold and underlined text, which one ends both, and whether links carry
their targets.

**Results.**
* `Styles.plain_apply`, `Styles.plain_hyperlink`: the plain table adds nothing.
* `Styles.styled_nil`: no table styles the empty text.
-/
namespace TextPager.Man

/-- Escape sequences that emphasise text. -/
structure Styles where
  bold : Text
  underline : Text
  /-- Ends bold and underlined text. -/
  normal : Text
  /-- Links carry their targets. -/
  links : Bool
  deriving DecidableEq, Repr

/-- How one stretch of text is emphasised. -/
inductive Emphasis where
  | bold | underline | roman
  deriving DecidableEq, Repr

namespace Styles

/-- Sequences that terminals of the xterm family know. -/
def ansi : Styles :=
  { bold := "\x1b[1m".toList, underline := "\x1b[4m".toList, normal := "\x1b(B\x1b[m".toList,
    links := true }

/-- No sequences at all. -/
def plain : Styles := { bold := [], underline := [], normal := [], links := false }

/-- Text between the sequence that begins a style and the one that ends it. -/
def styled (s : Styles) (start text : Text) : Text :=
  if start.isEmpty || text.isEmpty then text else start ++ text ++ s.normal

/-- Emphasised text. -/
def apply (s : Styles) : Emphasis → Text → Text
  | .bold, t => s.styled s.bold t
  | .underline, t => s.styled s.underline t
  | .roman, t => t

/-- Link text that carries its target. -/
def hyperlink (s : Styles) (target text : Text) : Text :=
  if s.links then
    "\x1b]8;;".toList ++ target ++ "\x1b\\".toList ++ text ++ "\x1b]8;;\x1b\\".toList
  else text

theorem styled_nil (s : Styles) (start : Text) : s.styled start [] = [] := by
  simp [styled]

theorem plain_apply (e : Emphasis) (t : Text) : plain.apply e t = t := by
  cases e <;> rfl

theorem plain_hyperlink (target t : Text) : plain.hyperlink target t = t := rfl

end Styles

namespace Font

/-- The emphasis of the words at even and at odd places. -/
def alternation? : Font → Option (Emphasis × Emphasis)
  | boldItalic => some (.bold, .underline)
  | boldRoman => some (.bold, .roman)
  | italicBold => some (.underline, .bold)
  | italicRoman => some (.underline, .roman)
  | romanBold => some (.roman, .bold)
  | romanItalic => some (.roman, .underline)
  | bold | italic | small | smallBold => none

/-- The emphasis of the whole text, of a font that does not alternate. -/
def emphasis : Font → Emphasis
  | bold | smallBold => .bold
  | italic => .underline
  | _ => .roman

/-- Texts emphasised in turns. -/
def alternate (s : Styles) : Emphasis → Emphasis → List Text → List Text
  | _, _, [] => []
  | e, o, t :: ts => s.apply e t :: alternate s o e ts

/-- Text in the font. An alternating font takes turns at every space. -/
def render (f : Font) (s : Styles) (t : Text) : Text :=
  match f.alternation? with
  | some (even, odd) => Text.joinWords (alternate s even odd (t.piecesAt ' '))
  | none => s.apply f.emphasis t

end Font

end TextPager.Man
