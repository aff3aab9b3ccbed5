import TextPager.Page.Bookmark
import TextPager.Page.Pager
import TextPager.Viewer.Command
import TextPager.Viewer.Frame
import TextPager.Viewer.Key

/-!
# The viewer

The viewer shows one page at a time. Keys move between pages, open the prompts and fill them; a
resize gives the pages a new geometry and keeps the page on display in range. A rejected jump
leaves its reason on screen until the next action that says otherwise.

**Results.**
* `Viewer.resize_page_lt`: after a resize the page on display exists.
* `Viewer.submit_mode`: submitting ends the page prompt.
-/
namespace TextPager

/-- Columns taken by the frame and the blank column inside it, on both sides. -/
def frameColumns : Nat := 4

/-- Rows taken by the frame and the blank row inside it, above and below. -/
def frameRows : Nat := 4

/-- Height and width of the page area of a screen. -/
def pageArea (rows columns : Nat) : Nat × Nat := (rows - frameRows, columns - frameColumns)

/-- The state of the viewer. -/
structure Viewer where
  pager : Pager
  bookmark : Bookmark
  frame : Frame
  mode : InputMode
  /-- Why the last jump was rejected. -/
  message : Option JumpError

namespace Viewer

def ofPager (pager : Pager) (frame : Frame) : Viewer :=
  { pager := pager, bookmark := .first, frame := frame, mode := .reading, message := none }

/-- Fits the pages to a screen. -/
def resize (v : Viewer) (rows columns : Nat) : Viewer :=
  let area := pageArea rows columns
  let pager := (v.pager.setGeometry area.1 area.2).read
  { v with pager := pager, bookmark := v.bookmark.clamp pager.pageCount }

def back (v : Viewer) : Viewer := { v with message := none, bookmark := v.bookmark.back }

def next (v : Viewer) : Viewer :=
  { v with message := none, bookmark := v.bookmark.next v.pager.pageCount }

def startJump (v : Viewer) : Viewer := { v with message := none, mode := .jumping [] }

def startFlow (v : Viewer) : Viewer := { v with message := none, mode := .choosingFlow }

/-- Changes what was typed at the page prompt. -/
def editInput (edit : Text → Text) (v : Viewer) : Viewer :=
  match v.mode with
  | .jumping input => { v with mode := .jumping (edit input) }
  | _ => v

def pushInput (c : Char) (v : Viewer) : Viewer := v.editInput (· ++ [c])

def popInput (v : Viewer) : Viewer := v.editInput List.dropLast

/-- Jumps to the page that was typed, or says why not. -/
def submit (v : Viewer) : Viewer :=
  match v.mode with
  | .jumping input => match Bookmark.jumpTo input v.pager.pageCount with
    | .ok bookmark => { v with mode := .reading, bookmark := bookmark }
    | .error e => { v with mode := .reading, message := some e }
  | _ => { v with mode := .reading }

def cancel (v : Viewer) : Viewer := { v with mode := .reading }

/-- Breaks the document anew and goes to its first page. -/
def chooseFlow (key : Char) (v : Viewer) : Viewer :=
  { v with pager := (v.pager.setMode (flowChoice key)).read, bookmark := .first, mode := .reading }

/-- Does what a key asks for. Exiting changes nothing here; it ends the run. -/
def act (v : Viewer) : Action → Viewer
  | .back => v.back
  | .next => v.next
  | .jump => v.startJump
  | .flow => v.startFlow
  | .exit => v
  | .chooseFlow key => v.chooseFlow key
  | .input c => v.pushInput c
  | .erase => v.popInput
  | .submit => v.submit
  | .cancel => v.cancel

/-- Something that happens to the viewer. -/
inductive Event where
  | key (press : KeyPress)
  | resize (rows columns : Nat)
  deriving DecidableEq, Repr

/-- The viewer after an event; a key without a meaning changes nothing. -/
def handle (v : Viewer) : Event → Viewer
  | .key press => match action? v.mode press with
    | some action => v.act action
    | none => v
  | .resize rows columns => v.resize rows columns

/-- Commands that are offered now. -/
def commands (v : Viewer) : List Command :=
  match v.mode with
  | .choosingFlow => flowCommands
  | _ => readingCommands v.bookmark.page v.pager.pageCount

/-- The page on display and the number of pages, counted from 1. -/
def status (v : Viewer) : Text :=
  Text.ofNat (v.bookmark.page + 1) ++ ['/'] ++ Text.ofNat v.pager.pageCount

/-- After a resize the page on display exists. -/
theorem resize_page_lt {v : Viewer} (h : v.pager.Fresh) (rows columns : Nat) :
    (v.resize rows columns).bookmark.page < (v.resize rows columns).pager.pageCount :=
  Bookmark.clamp_lt _ (h.setGeometry _ _).read.pageCount_pos

/-- Submitting ends the page prompt. -/
theorem submit_mode (v : Viewer) : v.submit.mode = .reading := by
  unfold submit
  split
  · split <;> rfl
  · rfl

end Viewer

end TextPager
