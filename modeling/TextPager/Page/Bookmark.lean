import TextPager.Text.Number
import TextPager.Text.Quoted

/-!
# Bookmarks

A bookmark is the index of the page on display. It moves a page at a time and stays at either end,
or jumps to a page number that is asked for; a jump that names no page is rejected with a reason.

**Results.**
* `Bookmark.next_lt`, `Bookmark.jumpTo_lt`, `Bookmark.clamp_lt`: no move leaves the pages.
* `Bookmark.jump_eq_ok_iff`, `Bookmark.jumpTo_eq_ok_iff`: a jump is accepted exactly for the numbers
  of the pages.
-/
namespace TextPager

/-- Why a jump is rejected. -/
inductive JumpError where
  | notANumber (input : Text)
  | outOfRange (target count : Nat)
  deriving DecidableEq, Repr

def JumpError.message : JumpError → Text
  | notANumber input => input.quoted ++ " is not a page number".toList
  | outOfRange target count =>
    "page ".toList ++ Text.ofNat target ++ " is out of range (pages 1-".toList ++
      Text.ofNat count ++ [')']

/-- The page on display, counted from 0. -/
structure Bookmark where
  page : Nat
  deriving DecidableEq, Repr

namespace Bookmark

def first : Bookmark := ⟨0⟩

/-- No page of `count` follows. -/
def isLast (b : Bookmark) (count : Nat) : Bool := count ≤ b.page + 1

def next (b : Bookmark) (count : Nat) : Bookmark := if b.isLast count then b else ⟨b.page + 1⟩

def back (b : Bookmark) : Bookmark := ⟨b.page - 1⟩

/-- The bookmark at a page counted from 1. -/
def jump (target count : Nat) : Except JumpError Bookmark :=
  if target = 0 ∨ count < target then .error (.outOfRange target count) else .ok ⟨target - 1⟩

/-- The bookmark at the page number that was typed. -/
def jumpTo (input : Text) (count : Nat) : Except JumpError Bookmark :=
  match input.trim.number? with
  | some target => jump target count
  | none => .error (.notANumber input.trim)

/-- Pulled back to the last page when there are fewer pages than before. -/
def clamp (b : Bookmark) (count : Nat) : Bookmark := ⟨min b.page (count - 1)⟩

theorem next_lt {b : Bookmark} {count : Nat} (h : b.page < count) :
    (b.next count).page < count := by
  unfold next
  split
  · exact h
  · rename_i hl
    simp only [isLast, decide_eq_true_eq] at hl
    exact Nat.lt_of_not_le hl

theorem back_lt {b : Bookmark} {count : Nat} (h : b.page < count) : b.back.page < count :=
  Nat.lt_of_le_of_lt (Nat.sub_le _ _) h

theorem clamp_lt (b : Bookmark) {count : Nat} (h : 0 < count) : (b.clamp count).page < count := by
  simp only [clamp]
  omega

/-- A jump is accepted exactly for the numbers of the pages. -/
theorem jump_eq_ok_iff {target count : Nat} {b : Bookmark} :
    jump target count = .ok b ↔ 1 ≤ target ∧ target ≤ count ∧ b = ⟨target - 1⟩ := by
  unfold jump
  split
  · exact ⟨fun h => (by cases h), fun h => by omega⟩
  · refine ⟨fun h => ?_, fun h => by rw [h.2.2]⟩
    cases h
    exact ⟨by omega, by omega, rfl⟩

theorem jump_lt {target count : Nat} {b : Bookmark} (h : jump target count = .ok b) :
    b.page < count := by
  obtain ⟨h1, h2, rfl⟩ := jump_eq_ok_iff.1 h
  exact Nat.lt_of_lt_of_le (Nat.sub_lt h1 Nat.one_pos) h2

/-- What was typed is accepted exactly when it is the number of a page. -/
theorem jumpTo_eq_ok_iff {input : Text} {count : Nat} {b : Bookmark} :
    jumpTo input count = .ok b ↔
      ∃ target, input.trim.number? = some target ∧ 1 ≤ target ∧ target ≤ count ∧
        b = ⟨target - 1⟩ := by
  unfold jumpTo
  cases input.trim.number? with
  | none => exact ⟨fun h => (by cases h), fun ⟨_, h, _⟩ => by cases h⟩
  | some target => simp only [jump_eq_ok_iff, Option.some.injEq, exists_eq_left']

theorem jumpTo_lt {input : Text} {count : Nat} {b : Bookmark} (h : jumpTo input count = .ok b) :
    b.page < count := by
  obtain ⟨target, -, h1, h2, rfl⟩ := jumpTo_eq_ok_iff.1 h
  exact jump_lt (jump_eq_ok_iff.2 ⟨h1, h2, rfl⟩)

end Bookmark

end TextPager
