import TextPager.Proofs.Text.Numerals
import TextPager.Proofs.Viewer.InDocument

/-!
# A jump does what its text says

While reading, `j` opens the page prompt, every character pressed after it is collected, and Enter
submits them. What happens then is decided by the text alone: if it names a page of the document,
that page is shown; if it names another number below `wordLimit`, the number is out of range; any
other text is not a number. In all three cases the viewer reads on, and a rejected jump moves
nothing.

**Results.**
* `Bookmark.jumpTo_of_names`, `Bookmark.jumpTo_of_not_names`: what a typed text asks for.
* `run_typed`: characters pressed at the page prompt are collected in order.
* `run_pageRequest`: opening the prompt, typing and Enter submit what was typed.
* `run_pageRequest_says`: the page shown and the message after a jump, for every text typed.
-/
namespace TextPager

/-! ## What a typed text asks for -/

namespace Bookmark

variable {typed : Text} {count n : Nat}

theorem jumpTo_of_names (h : typed.Names n) (hn : n < wordLimit) :
    jumpTo typed count = jump n count := by
  rw [jumpTo, Text.number?_trim_eq_some_iff.2 ⟨h, hn⟩]

theorem jumpTo_of_not_names (h : ∀ n, typed.Names n → wordLimit ≤ n) :
    jumpTo typed count = .error (.notANumber typed.trim) := by
  have hnone : typed.trim.number? = none := Option.eq_none_iff_forall_ne_some.2 fun n hread => by
    obtain ⟨hnames, hlt⟩ := Text.number?_trim_eq_some_iff.1 hread
    exact Nat.not_lt_of_le (h n hnames) hlt
  rw [jumpTo, hnone]

end Bookmark

namespace Viewer

/-! ## Asking for a page -/

/-- Characters pressed one after the other, without Control. -/
def typing (typed : Text) : List Event := typed.map fun c => .key ⟨.char c, false⟩

/-- The keys that ask for a page: `j`, the characters of a text, and Enter. Only for the characters
does Control matter. -/
def pageRequest (typed : Text) (jControl enterControl : Bool) : List Event :=
  .key ⟨.char 'j', jControl⟩ :: (typing typed ++ [.key ⟨.enter, enterControl⟩])

/-- Characters pressed at the page prompt are collected in order. -/
theorem run_typed {v : Viewer} {input : Text} (hm : v.mode = .jumping input) (typed : Text) :
    v.run (typing typed) = { v with mode := .jumping (input ++ typed) } := by
  induction typed generalizing v input with
  | nil => rw [List.append_nil, ← hm]; rfl
  | cons c typed ih =>
    have hc : v.handle (.key ⟨.char c, false⟩) = { v with mode := .jumping (input ++ [c]) } := by
      simp only [handle, hm, action?_jumping_char, act, pushInput, editInput]
    calc v.run (typing (c :: typed))
        = (v.handle (.key ⟨.char c, false⟩)).run (typing typed) := rfl
      _ = { v with mode := .jumping (input ++ [c] ++ typed) } := by rw [hc, ih rfl]
      _ = { v with mode := .jumping (input ++ c :: typed) } := by rw [List.append_assoc]; rfl

/-- The viewer with a text typed at the page prompt. -/
def prompting (v : Viewer) (typed : Text) : Viewer :=
  { v with message := none, mode := .jumping typed }

/-- Opening the page prompt, typing and Enter submit what was typed. -/
theorem run_pageRequest {v : Viewer} (hm : v.mode = .reading) (typed : Text)
    (jControl enterControl : Bool) :
    v.run (pageRequest typed jControl enterControl) =
      (v.prompting typed).submit := by
  have hj : v.handle (.key ⟨.char 'j', jControl⟩) = v.startJump := by
    have hkey : readingAction? 'j' = some .jump := by decide
    simp [handle, hm, action?, hkey, act]
  rw [pageRequest, run_cons, hj, run_append, @run_typed v.startJump [] rfl]
  simp only [run, List.foldl_cons, List.foldl_nil, handle, action?, startJump, List.nil_append,
    act, reduceCtorEq, and_false, if_false, prompting]

/-- **A jump typed at the prompt does exactly what its text says.** Whatever keys were pressed and
however the screen was resized before, a viewer that is reading and is asked for a page reads on
with the same pager. If the text typed names the number of a page, a machine word as page counts
are, that page is shown and there is no message. If it names another number below the limit, the
page stays and the message says that the number is out of range. In every other case the page stays
and the message says that the text, without the white space around it, is not a number. -/
theorem run_pageRequest_says (text title : Text) (height width : Nat) (mode : WrapMode)
    (frame : Frame) (es : List Event) (typed : Text) (jControl enterControl : Bool) :
    let v := (ofPager (.ofText text title height width mode) frame).run es
    let w := v.run (pageRequest typed jControl enterControl)
    v.mode = .reading →
      w.mode = .reading ∧ w.pager = v.pager ∧
        (∀ n, typed.Names n → n < wordLimit → 1 ≤ n → n ≤ v.pager.pageCount →
          w.bookmark.page = n - 1 ∧ w.message = none) ∧
        (∀ n, typed.Names n → n < wordLimit → ¬(1 ≤ n ∧ n ≤ v.pager.pageCount) →
          w.bookmark = v.bookmark ∧ w.message = some (.outOfRange n v.pager.pageCount)) ∧
        ((∀ n, typed.Names n → wordLimit ≤ n) →
          w.bookmark = v.bookmark ∧ w.message = some (.notANumber typed.trim)) := by
  intro v w hm
  have hw : w = (v.prompting typed).submit := run_pageRequest hm typed jControl enterControl
  have hprompt : (v.prompting typed).mode = .jumping typed := rfl
  refine ⟨hw ▸ submit_mode _, hw ▸ submit_pager _, fun n hn hlt h1 hcount => ?_,
    fun n hn hlt hout => ?_, fun hno => ?_⟩
  · have hjump : Bookmark.jumpTo typed v.pager.pageCount = .ok ⟨n - 1⟩ :=
      (Bookmark.jumpTo_of_names hn hlt).trans (Bookmark.jump_eq_ok_iff.2 ⟨h1, hcount, rfl⟩)
    rw [hw, submit_of_ok hprompt hjump]
    exact ⟨rfl, rfl⟩
  · have hjump : Bookmark.jumpTo typed v.pager.pageCount =
        .error (.outOfRange n v.pager.pageCount) :=
      (Bookmark.jumpTo_of_names hn hlt).trans (if_pos (by omega))
    rw [hw, submit_of_error hprompt hjump]
    exact ⟨rfl, rfl⟩
  · rw [hw, submit_of_error hprompt (Bookmark.jumpTo_of_not_names hno)]
    exact ⟨rfl, rfl⟩

/-- A plus sign and white space do no harm, nor does the rejected jump before. -/
theorem run_pageRequest_says_second_page :
    let v := (ofPager (.ofText "a\nb\nc".toList "abc".toList 1 9 .noWrap)
      FrameKind.light.frame).run (.resize 5 12 :: pageRequest "0".toList false false)
    let w := v.run (pageRequest " +02 ".toList false true)
    v.mode = .reading ∧ v.message = some (.outOfRange 0 3) ∧
      w.mode = .reading ∧ w.bookmark.page = 1 ∧ w.message = none := by
  intro v w
  have hm : v.mode = .reading := by decide +kernel
  have hcount : v.pager.pageCount = 3 := by decide +kernel
  have hnames : Text.Names " +02 ".toList 2 :=
    ⟨[' '], "+02".toList, [' '], by decide, by decide, by decide, ['+'], "02".toList, by decide,
      .inr rfl, by decide, List.all_eq_true.1 (by decide), by decide⟩
  obtain ⟨hmode, -, haccepted, -⟩ := run_pageRequest_says "a\nb\nc".toList "abc".toList 1 9 .noWrap
    FrameKind.light.frame (.resize 5 12 :: pageRequest "0".toList false false) " +02 ".toList
    false true hm
  obtain ⟨hpage, hmessage⟩ := haccepted 2 hnames (by decide) (by decide) (by rw [hcount]; decide)
  exact ⟨hm, by decide +kernel, hmode, hpage, hmessage⟩

end Viewer

end TextPager
