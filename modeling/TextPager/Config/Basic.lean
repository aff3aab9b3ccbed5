import TextPager.CommandLine
import TextPager.Page.Pager

/-!
# Configuration

A configuration sets how documents are broken into lines, what frame is drawn, and the size of
printed pages. It comes from a file or from the defaults; options on the command line go over it,
and it is checked after that, so a bad setting that is overridden does no harm.

**Results.**
* `Config.check_eq_ok_iff`: what a checked configuration satisfies.
* `Config.frame?_of_check`: the frame of a checked configuration exists.
-/
namespace TextPager

/-- The version of configuration files that is understood. -/
def configVersion : Nat := 1

/-- Lines of a printed page unless they were asked for. -/
def defaultPageHeight : Nat := 20

/-- Columns of a printed page unless they were asked for. -/
def defaultPageWidth : Nat := 76

structure Config where
  version : Nat
  wrapMode : WrapMode
  frame : FrameKind
  /-- The parts of a frame of one's own, which goes before `frame`. -/
  customFrame : Option Text
  pageHeight : Option Nat
  pageWidth : Option Nat
  deriving DecidableEq, Repr

/-- Why a configuration is refused. -/
inductive ConfigRefusal where
  | unsupportedVersion (version : Nat)
  | zeroHeight
  | zeroWidth
  | badFrame (e : FrameError)
  deriving DecidableEq, Repr

namespace Config

def initial : Config :=
  { version := configVersion, wrapMode := .detect, frame := .light, customFrame := none,
    pageHeight := none, pageWidth := none }

/-- The options of a command line over a configuration. A frame by name also undoes a custom
frame of the file. -/
def override (c : Config) (l : CommandLine) : Config :=
  { c with
    wrapMode := l.wrap.getD c.wrapMode
    frame := l.frame.getD c.frame
    customFrame := l.customFrame.or (if l.frame.isSome then none else c.customFrame)
    pageHeight := l.height.or c.pageHeight
    pageWidth := l.width.or c.pageWidth }

/-- The frame to draw. -/
def frame? (c : Config) : Except FrameError Frame :=
  match c.customFrame with
  | some parts => Frame.ofParts? parts
  | none => .ok c.frame.frame

/-- Refuses settings that cannot be honoured. -/
def check (c : Config) : Except ConfigRefusal Unit :=
  if c.version ≠ configVersion then .error (.unsupportedVersion c.version)
  else if c.pageHeight = some 0 then .error .zeroHeight
  else if c.pageWidth = some 0 then .error .zeroWidth
  else match c.frame? with
    | .error e => .error (.badFrame e)
    | .ok _ => .ok ()

/-- A configuration with the options of a command line, checked. -/
def resolve (c : Config) (l : CommandLine) : Except ConfigRefusal Config := do
  let c := c.override l
  c.check
  return c

/-- The pager of a document that is printed. -/
def printer (c : Config) (title text : Text) : Pager :=
  (Pager.ofText text title (c.pageHeight.getD defaultPageHeight)
    (c.pageWidth.getD defaultPageWidth) c.wrapMode).setStyles .plain

/-- The settings that are honoured. -/
theorem check_eq_ok_iff (c : Config) :
    c.check = .ok () ↔ c.version = configVersion ∧ c.pageHeight ≠ some 0 ∧ c.pageWidth ≠ some 0 ∧
      ∃ f, c.frame? = .ok f := by
  unfold check
  cases hf : c.frame? <;> grind

/-- The frame of a checked configuration exists. -/
theorem frame?_of_check {c : Config} (h : c.check = .ok ()) : ∃ f, c.frame? = .ok f :=
  ((check_eq_ok_iff c).1 h).2.2.2

end Config

/-- What was refused, and why where that is told apart. -/
def ConfigRefusal.message : ConfigRefusal → Text × Option Text
  | unsupportedVersion v => ("unsupported config schema_version ".toList ++ Text.ofNat v, none)
  | zeroHeight => ("page_height must be at least 1".toList, none)
  | zeroWidth => ("page_width must be at least 1".toList, none)
  | badFrame e => ("invalid custom_frame".toList, some e.message)

end TextPager
