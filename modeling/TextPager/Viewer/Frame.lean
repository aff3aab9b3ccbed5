import TextPager.Text.Number

/-!
# Frames

The page stands inside a frame of box-drawing characters. A frame has fourteen parts: straight
lines, corners and joins, also those of the inside, which a single page never shows. Frames come
in eight kinds, or as a string of the parts in order.

**Results.**
* `Frame.ofParts?_parts`: the parts of a frame make that frame.
* `Frame.ofParts?_eq_error_iff`: only a wrong number of parts is refused.
* `FrameKind.lines_injective`: no two kinds are drawn alike.
-/
namespace TextPager

/-- Number of parts of a frame. -/
def framePartCount : Nat := 14

/-- One character for each part of a frame. -/
structure Frame where
  top : Char
  bottom : Char
  side : Char
  innerRow : Char
  innerColumn : Char
  topLeft : Char
  topJoin : Char
  topRight : Char
  leftJoin : Char
  cross : Char
  rightJoin : Char
  bottomLeft : Char
  bottomJoin : Char
  bottomRight : Char
  deriving DecidableEq, Repr

/-- A custom frame of the wrong number of parts. -/
structure FrameError where
  count : Nat
  deriving DecidableEq, Repr

def FrameError.message (e : FrameError) : Text :=
  "the custom frame string must be ".toList ++ Text.ofNat framePartCount ++
    " characters (got ".toList ++ Text.ofNat e.count ++ [')']

namespace Frame

/-- The parts in order. -/
def parts (f : Frame) : Text :=
  [f.top, f.bottom, f.side, f.innerRow, f.innerColumn, f.topLeft, f.topJoin, f.topRight,
    f.leftJoin, f.cross, f.rightJoin, f.bottomLeft, f.bottomJoin, f.bottomRight]

/-- The frame of fourteen parts. -/
def ofParts? : Text → Except FrameError Frame
  | [a, b, c, d, e, f, g, h, i, j, k, l, m, n] => .ok ⟨a, b, c, d, e, f, g, h, i, j, k, l, m, n⟩
  | parts => .error ⟨parts.length⟩

/-- Text set into the frame line, between the joins that face it. -/
def field (f : Frame) (t : Text) : Text := [f.rightJoin] ++ t ++ [f.leftJoin]

theorem ofParts?_parts (f : Frame) : ofParts? f.parts = .ok f := rfl

theorem length_parts (f : Frame) : f.parts.length = framePartCount := rfl

/-- Fourteen parts make a frame with these parts. -/
theorem exists_ofParts? {t : Text} (h : t.length = framePartCount) :
    ∃ f, ofParts? t = .ok f ∧ f.parts = t := by
  match t, h with
  | [a, b, c, d, e, f, g, h, i, j, k, l, m, n], _ =>
    exact ⟨⟨a, b, c, d, e, f, g, h, i, j, k, l, m, n⟩, rfl, rfl⟩

theorem parts_of_ofParts? {t : Text} {f : Frame} (h : ofParts? t = .ok f) : f.parts = t := by
  unfold ofParts? at h
  split at h
  · cases h; rfl
  · cases h

/-- Only a wrong number of parts is refused, and the refusal says the number. -/
theorem ofParts?_eq_error_iff {t : Text} {e : FrameError} :
    ofParts? t = .error e ↔ t.length ≠ framePartCount ∧ e = ⟨t.length⟩ := by
  by_cases h : t.length = framePartCount
  · obtain ⟨f, hf, -⟩ := exists_ofParts? h
    simp [hf, h]
  · have : ofParts? t = .error ⟨t.length⟩ := by
      unfold ofParts?
      split
      · exact absurd rfl h
      · rfl
    simp [this, h, eq_comm]

end Frame

/-- The frames that have names. -/
inductive FrameKind where
  | light | heavy
  | lightDoubleDash | heavyDoubleDash
  | lightTripleDash | heavyTripleDash
  | lightQuadrupleDash | heavyQuadrupleDash
  deriving DecidableEq, Repr

namespace FrameKind

def all : List FrameKind :=
  [light, heavy, lightDoubleDash, heavyDoubleDash, lightTripleDash, heavyTripleDash,
    lightQuadrupleDash, heavyQuadrupleDash]

/-- The name in configuration files. -/
def name : FrameKind → String
  | light => "light"
  | heavy => "heavy"
  | lightDoubleDash => "light_double_dash"
  | heavyDoubleDash => "heavy_double_dash"
  | lightTripleDash => "light_triple_dash"
  | heavyTripleDash => "heavy_triple_dash"
  | lightQuadrupleDash => "light_quadruple_dash"
  | heavyQuadrupleDash => "heavy_quadruple_dash"

/-- The characters of horizontal and of vertical lines. -/
def lines : FrameKind → Char × Char
  | light => ('─', '│')
  | heavy => ('━', '┃')
  | lightDoubleDash => ('╌', '╎')
  | heavyDoubleDash => ('╍', '╏')
  | lightTripleDash => ('┄', '┆')
  | heavyTripleDash => ('┅', '┇')
  | lightQuadrupleDash => ('┈', '┊')
  | heavyQuadrupleDash => ('┉', '┋')

def isHeavy : FrameKind → Bool
  | heavy | heavyDoubleDash | heavyTripleDash | heavyQuadrupleDash => true
  | _ => false

/-- The frame of a kind. Dashes change the straight lines only. -/
def frame (k : FrameKind) : Frame :=
  let (row, column) := k.lines
  if k.isHeavy then
    { top := row, bottom := row, side := column, innerRow := row, innerColumn := column,
      topLeft := '┏', topJoin := '┳', topRight := '┓',
      leftJoin := '┣', cross := '╋', rightJoin := '┫',
      bottomLeft := '┗', bottomJoin := '┻', bottomRight := '┛' }
  else
    { top := row, bottom := row, side := column, innerRow := row, innerColumn := column,
      topLeft := '┌', topJoin := '┬', topRight := '┐',
      leftJoin := '├', cross := '┼', rightJoin := '┤',
      bottomLeft := '└', bottomJoin := '┴', bottomRight := '┘' }

/-- Kinds differ in their straight lines. -/
theorem lines_injective {k l : FrameKind} (h : k.lines = l.lines) : k = l := by
  revert h
  cases k <;> cases l <;> decide

end FrameKind

end TextPager
