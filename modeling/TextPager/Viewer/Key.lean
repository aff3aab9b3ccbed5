import TextPager.Text.Basic

/-!
# Keys

What a key means depends on the input mode. Control-c always exits. The prompt for a wrap mode
takes any key; the prompt for a page number collects characters.

**Results.**
* `action?_control_c`: Control-c exits in every mode.
* `action?_jumping_char`: at the page prompt a character is collected, unless it is Control-c.
-/
namespace TextPager

/-- A key. -/
inductive Key where
  | left | right | up | down | pageUp | pageDown | enter | esc | backspace
  | char (c : Char)
  /-- A key without a meaning of its own. -/
  | other
  deriving DecidableEq, Repr

/-- A key as it was pressed, with or without Control. -/
structure KeyPress where
  key : Key
  control : Bool
  deriving DecidableEq, Repr

/-- What keys mean now. -/
inductive InputMode where
  | reading
  /-- Waiting for the key that picks a wrap mode. -/
  | choosingFlow
  /-- Collecting a page number. -/
  | jumping (input : Text)
  deriving DecidableEq, Repr

/-- What a key asks for. -/
inductive Action where
  | back | next | jump | flow | exit
  | chooseFlow (key : Char)
  | input (c : Char)
  | erase | submit | cancel
  deriving DecidableEq, Repr

/-- What a character asks for while reading, in either case. -/
def readingAction? (c : Char) : Option Action :=
  match c.toLower with
  | 'b' => some .back
  | 'n' | ' ' => some .next
  | 'j' => some .jump
  | 'f' => some .flow
  | 'x' | 'q' => some .exit
  | _ => none

/-- What a key asks for in an input mode. -/
def action? (mode : InputMode) (press : KeyPress) : Option Action :=
  if press.control = true ∧ press.key = .char 'c' then some .exit
  else match mode, press.key with
    | .reading, .left | .reading, .up | .reading, .pageUp => some .back
    | .reading, .right | .reading, .down | .reading, .pageDown => some .next
    | .reading, .char c => readingAction? c
    | .reading, _ => none
    | .choosingFlow, .char c => some (.chooseFlow c)
    | .choosingFlow, _ => some (.chooseFlow 'd')
    | .jumping _, .enter => some .submit
    | .jumping _, .esc => some .cancel
    | .jumping _, .backspace => some .erase
    | .jumping _, .char c => some (.input c)
    | .jumping _, _ => none

theorem action?_control_c (mode : InputMode) : action? mode ⟨.char 'c', true⟩ = some .exit := by
  simp [action?]

theorem action?_jumping_char (input : Text) (c : Char) :
    action? (.jumping input) ⟨.char c, false⟩ = some (.input c) := by
  simp [action?]

end TextPager
