import TextPager.Viewer.Basic

/-!
# The viewer stays in the document

The number of pages changes with every resize and every new wrap mode, while the page on display
is an index kept beside the pager. A viewer is `InDocument` if that index names a page, the kept
pages are up to date and a page has at least one line and one column. A new viewer is, and every
event keeps it so: a key either leaves the pager alone and moves within its pages, or breaks the
document anew and goes to the first page; a resize pulls the index back into the new pages.

`Moves` lists how an event may change the page on display, and to which page.

**Results.**
* `Pager.Ready.pages_eq_of_page`: a page shows nothing only if it is the one page of an empty
  document.
* `InDocument.handle`, `InDocument.run`: an event, and any run of events, stays in the document.
* `moves_of_handle`: the page on display changes only by going back or on, by an accepted jump, by
  a new wrap mode or by being pulled back at a resize.
* `run_ofPager_inDocument`: all of this in every state of a viewer on any document.
-/
namespace TextPager

/-! ## Pagers that are ready to be read -/

/-- The kept pages are up to date, and a page has at least one line and one column. -/
structure Pager.Ready (p : Pager) : Prop where
  fresh : p.Fresh
  height_pos : 1 ≤ p.height
  width_pos : 1 ≤ p.width

namespace Pager.Ready

variable {p : Pager}

theorem ofText (text title : Text) (height width : Nat) (mode : WrapMode) :
    (Pager.ofText text title height width mode).Ready :=
  ⟨fresh_ofText text title height width mode, Nat.le_max_right _ _, Nat.le_max_right _ _⟩

theorem read (h : p.Ready) : p.read.Ready := ⟨h.fresh.read, h.height_pos, h.width_pos⟩

theorem setMode (h : p.Ready) (mode : WrapMode) : (p.setMode mode).Ready :=
  ⟨fresh_setMode p mode, h.height_pos, h.width_pos⟩

theorem setGeometry (h : p.Ready) (height width : Nat) : (p.setGeometry height width).Ready := by
  have hfresh := h.fresh.setGeometry height width
  unfold Pager.setGeometry at hfresh ⊢
  split
  · exact h
  · rename_i hne
    rw [if_neg hne] at hfresh
    exact ⟨hfresh, Nat.le_max_right _ _, Nat.le_max_right _ _⟩

/-- A page shows nothing only if it is the one page of an empty document. -/
theorem pages_eq_of_page (h : p.Ready) {index : Nat} (hi : index < p.pageCount)
    (hp : p.page index = []) : p.pages = [[]] := by
  have hmem : p.page index ∈ p.pages := by
    rw [Pager.page, List.getD_eq_getElem?_getD, List.getElem?_eq_getElem hi]
    exact List.getElem_mem hi
  rw [h.fresh.pages_eq] at hmem ⊢
  rcases p.makePages_opens with hone | hopens
  · exact hone
  · exact absurd hp (hopens _ hmem).ne_nil

end Pager.Ready

namespace Viewer

/-! ## What a key does and what it leaves alone -/

theorem editInput_frame (edit : Text → Text) (v : Viewer) :
    (v.editInput edit).pager = v.pager ∧ (v.editInput edit).bookmark = v.bookmark := by
  unfold editInput
  split <;> exact ⟨rfl, rfl⟩

theorem submit_pager (v : Viewer) : v.submit.pager = v.pager := by
  unfold submit
  split
  · split <;> rfl
  · rfl

/-- Submitting goes to the page that was typed, if there is one, and stays on the page if not. -/
theorem submit_bookmark (v : Viewer) :
    (∃ input, v.mode = .jumping input ∧
        Bookmark.jumpTo input v.pager.pageCount = .ok v.submit.bookmark) ∨
      v.submit.bookmark = v.bookmark := by
  unfold submit
  split
  · rename_i input hmode
    split
    · rename_i b hb
      exact .inl ⟨input, hmode, hb⟩
    · exact .inr rfl
  · exact .inr rfl

/-- An accepted jump shows the page and leaves the message alone. -/
theorem submit_of_ok {v : Viewer} {typed : Text} {b : Bookmark} (hm : v.mode = .jumping typed)
    (h : Bookmark.jumpTo typed v.pager.pageCount = .ok b) :
    v.submit = { v with mode := .reading, bookmark := b } := by
  simp only [submit, hm, h]

/-- A rejected jump leaves its reason and moves nothing. -/
theorem submit_of_error {v : Viewer} {typed : Text} {e : JumpError} (hm : v.mode = .jumping typed)
    (h : Bookmark.jumpTo typed v.pager.pageCount = .error e) :
    v.submit = { v with mode := .reading, message := some e } := by
  simp only [submit, hm, h]

/-- A key without a meaning changes nothing; any other does what it asks for. -/
theorem handle_key (v : Viewer) (press : KeyPress) :
    (action? v.mode press = none ∧ v.handle (.key press) = v) ∨
      ∃ a, action? v.mode press = some a ∧ v.handle (.key press) = v.act a := by
  simp only [handle]
  cases action? v.mode press with
  | none => exact .inl ⟨rfl, rfl⟩
  | some a => exact .inr ⟨a, rfl, rfl⟩

/-! ## Staying in the document -/

/-- The page on display is a page of the document. -/
structure InDocument (v : Viewer) : Prop where
  ready : v.pager.Ready
  page_lt : v.bookmark.page < v.pager.pageCount

namespace InDocument

variable {v : Viewer}

/-- Nothing but the pager and the page on display matters. -/
theorem of_eq {w : Viewer} (h : v.InDocument) (hp : w.pager = v.pager)
    (hb : w.bookmark = v.bookmark) : w.InDocument :=
  ⟨hp ▸ h.ready, by rw [hp, hb]; exact h.page_lt⟩

/-- A viewer on a pager begins on the first page. -/
theorem ofPager {p : Pager} (h : p.Ready) (frame : Frame) : (Viewer.ofPager p frame).InDocument :=
  ⟨h, h.fresh.pageCount_pos⟩

theorem submit (h : v.InDocument) : v.submit.InDocument := by
  refine ⟨v.submit_pager ▸ h.ready, ?_⟩
  rw [v.submit_pager]
  rcases v.submit_bookmark with ⟨input, -, hjump⟩ | hsame
  · exact Bookmark.jumpTo_lt hjump
  · rw [hsame]
    exact h.page_lt

theorem chooseFlow (h : v.InDocument) (key : Char) : (v.chooseFlow key).InDocument := by
  have hready := (h.ready.setMode (flowChoice key)).read
  exact ⟨hready, hready.fresh.pageCount_pos⟩

theorem resize (h : v.InDocument) (rows columns : Nat) : (v.resize rows columns).InDocument :=
  ⟨(h.ready.setGeometry _ _).read, v.resize_page_lt h.ready.fresh rows columns⟩

/-- No action leaves the document. -/
theorem act (h : v.InDocument) (a : Action) : (v.act a).InDocument := by
  cases a with
  | back => exact ⟨h.ready, Bookmark.back_lt h.page_lt⟩
  | next => exact ⟨h.ready, Bookmark.next_lt h.page_lt⟩
  | jump => exact h.of_eq rfl rfl
  | flow => exact h.of_eq rfl rfl
  | exit => exact h
  | chooseFlow key => exact h.chooseFlow key
  | input c => exact h.of_eq (editInput_frame _ v).1 (editInput_frame _ v).2
  | erase => exact h.of_eq (editInput_frame _ v).1 (editInput_frame _ v).2
  | submit => exact h.submit
  | cancel => exact h.of_eq rfl rfl

/-- No event leaves the document. -/
theorem handle (h : v.InDocument) (e : Event) : (v.handle e).InDocument := by
  cases e with
  | resize rows columns => exact h.resize rows columns
  | key press =>
    rcases v.handle_key press with ⟨-, hsame⟩ | ⟨a, -, hact⟩
    · rw [hsame]
      exact h
    · rw [hact]
      exact h.act a

end InDocument

/-- The viewer after a run of events. -/
def run (v : Viewer) (es : List Event) : Viewer := es.foldl handle v

theorem run_cons (v : Viewer) (e : Event) (es : List Event) :
    v.run (e :: es) = (v.handle e).run es := rfl

theorem run_append (v : Viewer) (es fs : List Event) : v.run (es ++ fs) = (v.run es).run fs :=
  List.foldl_append

/-- No run of events leaves the document. -/
theorem InDocument.run {v : Viewer} (h : v.InDocument) (es : List Event) :
    (v.run es).InDocument := by
  induction es generalizing v with
  | nil => exact h
  | cons e es ih => exact ih (h.handle e)

/-! ## Moving in the document -/

/-- How an event changes the page on display, and to which page. -/
inductive Moves (v : Viewer) : Event → Nat → Prop where
  | back {press : KeyPress} (h : action? v.mode press = some .back) :
    Moves v (.key press) (v.bookmark.page - 1)
  | next {press : KeyPress} (h : action? v.mode press = some .next)
      (more : v.bookmark.page + 1 < v.pager.pageCount) :
    Moves v (.key press) (v.bookmark.page + 1)
  /-- A jump that is accepted. -/
  | jump {press : KeyPress} {input : Text} {target : Nat}
      (h : action? v.mode press = some .submit) (mode : v.mode = .jumping input)
      (typed : input.trim.number? = some target) (first : 1 ≤ target)
      (last : target ≤ v.pager.pageCount) :
    Moves v (.key press) (target - 1)
  | flow {press : KeyPress} {key : Char} (h : action? v.mode press = some (.chooseFlow key)) :
    Moves v (.key press) 0
  /-- The document has become too short for the page on display. -/
  | resize {rows columns : Nat}
      (short : (v.resize rows columns).pager.pageCount ≤ v.bookmark.page) :
    Moves v (.resize rows columns) ((v.resize rows columns).pager.pageCount - 1)

theorem moves_of_act {v : Viewer} {press : KeyPress} {a : Action} (h : action? v.mode press = some a)
    (hne : (v.act a).bookmark.page ≠ v.bookmark.page) :
    v.Moves (.key press) (v.act a).bookmark.page := by
  cases a with
  | back => exact .back h
  | next =>
    have hnext : (v.act .next).bookmark = v.bookmark.next v.pager.pageCount := rfl
    rw [hnext] at hne ⊢
    unfold Bookmark.next at hne ⊢
    split
    · rename_i hlast
      exact absurd rfl (if_pos hlast ▸ hne)
    · rename_i hlast
      simp only [Bookmark.isLast, decide_eq_true_eq, Nat.not_le] at hlast
      exact .next h hlast
  | jump => exact absurd rfl hne
  | flow => exact absurd rfl hne
  | exit => exact absurd rfl hne
  | chooseFlow key => exact .flow h
  | input c => exact absurd (congrArg Bookmark.page (editInput_frame _ v).2) hne
  | erase => exact absurd (congrArg Bookmark.page (editInput_frame _ v).2) hne
  | submit =>
    rcases v.submit_bookmark with ⟨input, hmode, hjump⟩ | hsame
    · obtain ⟨target, ht, h1, h2, hb⟩ := Bookmark.jumpTo_eq_ok_iff.1 hjump
      have hpage : (v.act .submit).bookmark.page = target - 1 := congrArg Bookmark.page hb
      rw [hpage]
      exact .jump h hmode ht h1 h2
    · exact absurd (congrArg Bookmark.page hsame) hne
  | cancel => exact absurd rfl hne

/-- The page on display changes only by going back or on, by an accepted jump, by a new wrap mode
or by being pulled back at a resize. -/
theorem moves_of_handle {v : Viewer} {e : Event}
    (hne : (v.handle e).bookmark.page ≠ v.bookmark.page) :
    v.Moves e (v.handle e).bookmark.page := by
  cases e with
  | resize rows columns =>
    have hclamp : (v.handle (.resize rows columns)).bookmark.page =
        min v.bookmark.page ((v.resize rows columns).pager.pageCount - 1) := rfl
    have hpage : (v.handle (.resize rows columns)).bookmark.page =
        (v.resize rows columns).pager.pageCount - 1 := by omega
    rw [hpage]
    exact .resize (by omega)
  | key press =>
    rcases v.handle_key press with ⟨-, hsame⟩ | ⟨a, ha, hact⟩
    · exact absurd (by rw [hsame]) hne
    · rw [hact] at hne ⊢
      exact moves_of_act ha hne

/-- **The viewer never leaves the document.** Whatever keys are pressed and however the screen is
resized, the page on display is one of the document's, a page has at least one line and one
column, the page shows something unless the document has one empty page, and what happens next
changes the page on display only as `Moves` says. -/
theorem run_ofPager_inDocument (text title : Text) (height width : Nat) (mode : WrapMode)
    (frame : Frame) (es : List Event) :
    let v := (ofPager (.ofText text title height width mode) frame).run es
    v.bookmark.page < v.pager.pageCount ∧ 1 ≤ v.pager.height ∧ 1 ≤ v.pager.width ∧
      (v.pager.page v.bookmark.page = [] → v.pager.pages = [[]]) ∧
      ∀ e, (v.handle e).bookmark.page ≠ v.bookmark.page →
        v.Moves e (v.handle e).bookmark.page := by
  intro v
  have h : v.InDocument :=
    (InDocument.ofPager (.ofText text title height width mode) frame).run es
  exact ⟨h.page_lt, h.ready.height_pos, h.ready.width_pos, h.ready.pages_eq_of_page h.page_lt,
    fun _ => moves_of_handle⟩

end Viewer

end TextPager
