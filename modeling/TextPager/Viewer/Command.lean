import TextPager.Reflow

/-!
# Commands

The bottom of the frame lists the keys that do something now. While reading, the list depends on
the page; at the prompt for a wrap mode it offers the modes.

**Results.**
* `mem_readingCommands_back`, `mem_readingCommands_next`: going back is offered after the first
  page, going on before the last one.
-/
namespace TextPager

/-- A key and the name of what it does. -/
structure Command where
  key : Char
  name : Text
  deriving DecidableEq, Repr

namespace Command

def back : Command := ⟨'b', "back".toList⟩
def flow : Command := ⟨'f', "flow".toList⟩
def jump : Command := ⟨'j', "jump".toList⟩
def next : Command := ⟨'n', "next".toList⟩
def exit : Command := ⟨'x', "exit".toList⟩

/-- A name with the first occurrence of a key in upper case. -/
def labelOf (key : Char) : Text → Text
  | [] => []
  | c :: t => if c = key then c.toUpper :: t else c :: labelOf key t

/-- The name with its key in upper case. -/
def label (c : Command) : Text := labelOf c.key c.name

end Command

/-- Commands while reading a page, counted from 0, of `count`. -/
def readingCommands (page count : Nat) : List Command :=
  (if page = 0 then [] else [.back]) ++ [.flow, .jump] ++
    (if page + 1 < count then [.next] else []) ++ [.exit]

/-- Commands at the prompt for a wrap mode. -/
def flowCommands : List Command :=
  [⟨'n', "none".toList⟩, ⟨'d', "detect".toList⟩, ⟨'l', "long".toList⟩, ⟨'m', "man".toList⟩]

/-- The wrap mode a key picks at the prompt, in either case; other keys pick detection. -/
def flowChoice (key : Char) : WrapMode :=
  match key.toLower with
  | 'n' => .noWrap
  | 'l' => .long
  | 'm' => .man
  | _ => .detect

theorem mem_readingCommands_back {page count : Nat} :
    Command.back ∈ readingCommands page count ↔ page ≠ 0 := by
  have h1 : Command.back ≠ .flow := by decide
  have h2 : Command.back ≠ .jump := by decide
  have h3 : Command.back ≠ .next := by decide
  have h4 : Command.back ≠ .exit := by decide
  unfold readingCommands
  split <;> split <;> simp_all

theorem mem_readingCommands_next {page count : Nat} :
    Command.next ∈ readingCommands page count ↔ page + 1 < count := by
  have h1 : Command.next ≠ .flow := by decide
  have h2 : Command.next ≠ .jump := by decide
  have h3 : Command.next ≠ .back := by decide
  have h4 : Command.next ≠ .exit := by decide
  unfold readingCommands
  split <;> split <;> simp_all

end TextPager
