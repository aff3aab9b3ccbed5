import TextPager.Page.Pager

/-!
# Kept pages are never stale

A pager keeps its pages between reads. What they should be is decided by the settings alone: the
text, the geometry, the wrap mode and the styles that were set last. `Settings` records these
without keeping anything, and `Settings.pager` is a new pager built from them.

A pager `Follows` settings if, but for the pages it keeps, it is the pager that would be built from
them, and the pages it keeps are those it would make again. One operation carries that relation
on, so a run of any length answers every read as a pager built at that moment would.

**Results.**
* `Follows.pages_eq`: a pager that follows settings has the pages of a new pager.
* `Follows.step`, `Follows.answer_eq`: an operation keeps the relation and is answered alike.
* `answers_run_ofText`: every read in a run of operations is answered as by a new pager, and there
  is always a page.
-/
namespace TextPager

/-- What is to be paged, and how. -/
structure Settings where
  text : Text
  title : Text
  height : Nat
  width : Nat
  mode : WrapMode
  styles : Man.Styles
  deriving DecidableEq, Repr

namespace Pager

/-- What can be done with a pager: four changes and three reads. -/
inductive Operation where
  | setStyles (styles : Man.Styles)
  | setMode (mode : WrapMode)
  | setGeometry (height width : Nat)
  | setText (text : Text)
  | pages
  | page (index : Nat)
  | pageCount
  deriving DecidableEq, Repr

/-- The answer to a read; a change has none. -/
inductive Answer where
  | none
  | pages (pages : List Page)
  | page (page : Page)
  | pageCount (count : Nat)
  deriving DecidableEq, Repr

/-- The answer to an operation and the pager after it. Every read keeps the pages. -/
def step (p : Pager) : Operation → Answer × Pager
  | .setStyles styles => (.none, p.setStyles styles)
  | .setMode mode => (.none, p.setMode mode)
  | .setGeometry height width => (.none, p.setGeometry height width)
  | .setText text => (.none, p.setText text)
  | .pages => (.pages p.pages, p.read)
  | .page index => (.page (p.page index), p.read)
  | .pageCount => (.pageCount p.pageCount, p.read)

/-- The answers to operations and the pager after them. -/
def run : Pager → List Operation → List Answer × Pager
  | p, [] => ([], p)
  | p, o :: os =>
    let (answer, next) := p.step o
    let (answers, last) := run next os
    (answer :: answers, last)

end Pager

namespace Settings

open Pager (Operation Answer)

/-- A new pager with these settings; it keeps no pages yet. -/
def pager (s : Settings) : Pager :=
  { text := s.text, title := s.title, height := max s.height 1, width := max s.width 1,
    mode := s.mode, styles := s.styles, kept := none }

/-- The settings after an operation. A read changes none. -/
def after (s : Settings) : Operation → Settings
  | .setStyles styles => { s with styles := styles }
  | .setMode mode => { s with mode := mode }
  | .setGeometry height width => { s with height := height, width := width }
  | .setText text => { s with text := text }
  | .pages | .page _ | .pageCount => s

/-- The answers to operations, each read by a pager newly built for it. -/
def answers : Settings → List Operation → List Answer
  | _, [] => []
  | s, o :: os => (s.pager.step o).1 :: answers (s.after o) os

end Settings

namespace Pager

/-- The pager without the pages it keeps. -/
def emptied (p : Pager) : Pager := { p with kept := none }

/-- But for the pages it keeps, the pager is the one that would be built from the settings; and it
would make again the pages it keeps. -/
structure Follows (p : Pager) (s : Settings) : Prop where
  emptied_eq : p.emptied = s.pager
  fresh : p.Fresh

namespace Follows

variable {p : Pager} {s : Settings}

theorem ofText (text title : Text) (height width : Nat) (mode : WrapMode) :
    (Pager.ofText text title height width mode).Follows
      ⟨text, title, height, width, mode, .ansi⟩ :=
  ⟨rfl, fresh_ofText text title height width mode⟩

/-- What a pager makes does not depend on what it keeps. -/
theorem pages_eq (h : p.Follows s) : p.pages = s.pager.pages :=
  calc p.pages = p.makePages := h.fresh.pages_eq
    _ = p.emptied.makePages := rfl
    _ = s.pager.makePages := by rw [h.emptied_eq]
    _ = s.pager.pages := rfl

/-- A geometry that is the same after clamping leaves the pager alone, and a pager built with it
is the same too. -/
theorem setGeometry (h : p.Follows s) (height width : Nat) :
    (p.setGeometry height width).Follows (s.after (.setGeometry height width)) := by
  refine ⟨?_, h.fresh.setGeometry height width⟩
  have hs : (s.after (.setGeometry height width)).pager =
      { s.pager with height := max height 1, width := max width 1 } := rfl
  rw [hs, ← h.emptied_eq]
  unfold Pager.setGeometry
  split
  · rename_i hsame
    rw [hsame.1, hsame.2]
    rfl
  · rfl

/-- An operation keeps a pager in step with its settings. -/
theorem step (h : p.Follows s) (o : Operation) : (p.step o).2.Follows (s.after o) := by
  have hread : p.read.Follows s := ⟨h.emptied_eq, h.fresh.read⟩
  cases o with
  | setStyles styles =>
    exact ⟨congrArg (fun q => q.setStyles styles) h.emptied_eq, fresh_setStyles p styles⟩
  | setMode mode => exact ⟨congrArg (fun q => q.setMode mode) h.emptied_eq, fresh_setMode p mode⟩
  | setGeometry height width => exact h.setGeometry height width
  | setText text => exact ⟨congrArg (fun q => q.setText text) h.emptied_eq, fresh_setText p text⟩
  | pages => exact hread
  | page index => exact hread
  | pageCount => exact hread

/-- A read is answered as by a new pager. -/
theorem answer_eq (h : p.Follows s) (o : Operation) : (p.step o).1 = (s.pager.step o).1 := by
  cases o <;> simp only [Pager.step, Pager.page, Pager.pageCount, h.pages_eq]

/-- So are all reads of a run, and the pager follows the settings to its end. -/
theorem run (h : p.Follows s) (os : List Operation) :
    (p.run os).1 = s.answers os ∧ (p.run os).2.Follows (os.foldl Settings.after s) := by
  induction os generalizing p s with
  | nil => exact ⟨rfl, h⟩
  | cons o os ih =>
    obtain ⟨hanswers, hlast⟩ := ih (h.step o)
    exact ⟨List.cons_eq_cons.2 ⟨h.answer_eq o, hanswers⟩, hlast⟩

end Follows

/-- **Kept pages are never stale.** Whatever was done with a pager since it was made, each read on
the way was answered as by a pager newly built with the settings of that moment, its pages now are
those of a new pager with the settings now, and there is at least one. -/
theorem answers_run_ofText (text title : Text) (height width : Nat) (mode : WrapMode)
    (os : List Operation) :
    let start : Settings := ⟨text, title, height, width, mode, .ansi⟩
    let done := (ofText text title height width mode).run os
    done.1 = start.answers os ∧
      done.2.pages = (os.foldl Settings.after start).pager.pages ∧ done.2.pages ≠ [] := by
  intro start done
  obtain ⟨hanswers, hdone⟩ := (Follows.ofText text title height width mode).run os
  refine ⟨hanswers, hdone.pages_eq, ?_⟩
  rw [hdone.pages_eq]
  exact makePages_ne_nil _

end Pager

end TextPager
