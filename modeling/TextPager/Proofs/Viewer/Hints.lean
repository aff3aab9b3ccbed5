import TextPager.Proofs.Viewer.InDocument

/-!
# Hints and keys agree

While reading, the bottom of the frame lists `back` and `next` from the index of the page on display
and the number of pages. The keys they name move a bookmark, which finds out on its own whether it
is at either end. The two agree: a hint is listed exactly if its key turns a page, and then the key
turns one page. They agree wherever the index stands, so no run of events can set them apart.

**Results.**
* `pageAfter_back`, `pageAfter_next`: where the two keys lead while reading, in either case.
* `mem_commands_back_iff`, `mem_commands_next_iff`: a hint is listed exactly if there is a page to
  turn to.
* `back_truthful`, `next_truthful`: a hint and its key agree.
* `run_hints_truthful`: in every state of a viewer that is reading, a hint is listed exactly if its
  key turns a page.
-/
namespace TextPager

theorem Bookmark.page_next (b : Bookmark) (count : Nat) :
    (b.next count).page = if b.page + 1 < count then b.page + 1 else b.page := by
  unfold next isLast
  by_cases h : b.page + 1 < count
  · simp [h, Nat.not_le_of_lt h]
  · simp [h, Nat.le_of_not_lt h]

namespace Viewer

variable {v : Viewer} {c : Char}

/-- The page on display after a character is typed, with or without Control. -/
def pageAfter (v : Viewer) (c : Char) (control : Bool) : Nat :=
  (v.handle (.key ⟨.char c, control⟩)).bookmark.page

/-- While reading, a character does what it asks for, unless it is Control-c. -/
theorem handle_char (h : v.mode = .reading) (hc : c ≠ 'c') {a : Action}
    (ha : readingAction? c = some a) (control : Bool) :
    v.handle (.key ⟨.char c, control⟩) = v.act a := by
  simp [handle, h, action?, hc, ha]

theorem pageAfter_back (h : v.mode = .reading) (hc : c = 'b' ∨ c = 'B') (control : Bool) :
    v.pageAfter c control = v.bookmark.page - 1 := by
  have hkey : c ≠ 'c' ∧ readingAction? c = some .back := by
    rcases hc with rfl | rfl <;> decide
  rw [pageAfter, handle_char h hkey.1 hkey.2]
  rfl

theorem pageAfter_next (h : v.mode = .reading) (hc : c = 'n' ∨ c = 'N') (control : Bool) :
    v.pageAfter c control =
      if v.bookmark.page + 1 < v.pager.pageCount then v.bookmark.page + 1 else v.bookmark.page := by
  have hkey : c ≠ 'c' ∧ readingAction? c = some .next := by
    rcases hc with rfl | rfl <;> decide
  rw [pageAfter, handle_char h hkey.1 hkey.2]
  exact v.bookmark.page_next v.pager.pageCount

theorem commands_reading (h : v.mode = .reading) :
    v.commands = readingCommands v.bookmark.page v.pager.pageCount := by
  simp [commands, h]

/-- Going back is listed after the first page. -/
theorem mem_commands_back_iff (h : v.mode = .reading) :
    Command.back ∈ v.commands ↔ 0 < v.bookmark.page := by
  rw [commands_reading h, mem_readingCommands_back, Nat.pos_iff_ne_zero]

/-- Going on is listed before the last page. -/
theorem mem_commands_next_iff (h : v.mode = .reading) :
    Command.next ∈ v.commands ↔ v.bookmark.page + 1 < v.pager.pageCount := by
  rw [commands_reading h, mem_readingCommands_next]

/-! ## A hint and its key -/

/-- The `back` hint is listed exactly if `b` shows another page, which is then the one before. -/
theorem back_truthful (hm : v.mode = .reading) (hc : c = 'b' ∨ c = 'B') (control : Bool) :
    (Command.back ∈ v.commands ↔ v.pageAfter c control ≠ v.bookmark.page) ∧
      (v.pageAfter c control ≠ v.bookmark.page →
        v.pageAfter c control + 1 = v.bookmark.page) := by
  rw [mem_commands_back_iff hm, pageAfter_back hm hc]
  omega

/-- The `next` hint is listed exactly if `n` shows another page, which is then the one after. -/
theorem next_truthful (hm : v.mode = .reading) (hc : c = 'n' ∨ c = 'N') (control : Bool) :
    (Command.next ∈ v.commands ↔ v.pageAfter c control ≠ v.bookmark.page) ∧
      (v.pageAfter c control ≠ v.bookmark.page →
        v.pageAfter c control = v.bookmark.page + 1) := by
  rw [mem_commands_next_iff hm, pageAfter_next hm hc]
  split <;> omega

/-- **The hints are truthful.** Whatever keys were pressed and however the screen was resized, if
the viewer is reading, then `back` is listed exactly if `b` shows another page, which is the one
before, and `next` is listed exactly if `n` shows another page, which is the one after. -/
theorem run_hints_truthful (text title : Text) (height width : Nat) (mode : WrapMode)
    (frame : Frame) (es : List Event) (control : Bool) :
    let v := (ofPager (.ofText text title height width mode) frame).run es
    v.mode = .reading →
      (∀ c, c = 'b' ∨ c = 'B' →
        (Command.back ∈ v.commands ↔ v.pageAfter c control ≠ v.bookmark.page) ∧
          (v.pageAfter c control ≠ v.bookmark.page →
            v.pageAfter c control + 1 = v.bookmark.page)) ∧
        ∀ c, c = 'n' ∨ c = 'N' →
          (Command.next ∈ v.commands ↔ v.pageAfter c control ≠ v.bookmark.page) ∧
            (v.pageAfter c control ≠ v.bookmark.page →
              v.pageAfter c control = v.bookmark.page + 1) := by
  intro v hm
  exact ⟨fun _ hc => back_truthful hm hc control, fun _ hc => next_truthful hm hc control⟩

/-- A jump to the second of three pages, after one that was rejected. -/
def toSecondPage : List Event :=
  [.resize 5 12, .key ⟨.char 'j', false⟩, .key ⟨.char '9', false⟩, .key ⟨.enter, false⟩,
    .key ⟨.char 'j', false⟩, .key ⟨.char '2', false⟩, .key ⟨.enter, false⟩]

/-- On the second of three pages both hints are listed, and both keys turn a page. -/
theorem run_hints_truthful_second_page :
    let v := (ofPager (.ofText "a\nb\nc".toList "abc".toList 1 9 .noWrap)
      FrameKind.light.frame).run toSecondPage
    v.mode = .reading ∧ (Command.back ∈ v.commands ∧ v.pageAfter 'B' false + 1 = v.bookmark.page) ∧
      Command.next ∈ v.commands ∧ v.pageAfter 'n' false = v.bookmark.page + 1 := by
  intro v
  have hm : v.mode = .reading := by decide +kernel
  have hback : v.pageAfter 'B' false ≠ v.bookmark.page := by decide +kernel
  have hnext : v.pageAfter 'n' false ≠ v.bookmark.page := by decide +kernel
  obtain ⟨hb, hn⟩ := run_hints_truthful "a\nb\nc".toList "abc".toList 1 9 .noWrap
    FrameKind.light.frame toSecondPage false hm
  obtain ⟨hb1, hb2⟩ := hb 'B' (.inr rfl)
  obtain ⟨hn1, hn2⟩ := hn 'n' (.inl rfl)
  exact ⟨hm, ⟨hb1.2 hback, hb2 hback⟩, hn1.2 hnext, hn2 hnext⟩

end Viewer

end TextPager
