import TextPager.Page.Basic
import TextPager.Reflow

/-!
# Pagers

A pager holds a document with the geometry, the wrap mode and the styles it is paged with. Its
pages are made when first read and kept until something they depend on changes.

**Results.**
* `Pager.makePages_ne_nil`: a document has at least one page.
* `Pager.makePages_opens`: it has one empty page, or each of its pages begins with a line that is
  not blank.
* `Pager.Fresh.setGeometry` and its neighbours: no change leaves pages behind that the pager would
  not make again.
-/
namespace TextPager

/-- A document being paged. -/
structure Pager where
  text : Text
  title : Text
  height : Nat
  width : Nat
  mode : WrapMode
  styles : Man.Styles
  /-- Pages made before, unless something they depend on has changed since. -/
  kept : Option (List Page)

namespace Pager

/-- A pager with nothing read yet. Height and width are at least 1. -/
def ofText (text title : Text) (height width : Nat) (mode : WrapMode) : Pager :=
  { text := text, title := title, height := max height 1, width := max width 1, mode := mode,
    styles := .ansi, kept := none }

/-- The pages of the document as it is paged now; an empty document has one empty page. -/
def makePages (p : Pager) : List Page :=
  let pages := paginate p.height (reflow p.styles p.mode p.width p.text)
  if pages.isEmpty then [[]] else pages

/-- The pages, those kept from before if there are any. -/
def pages (p : Pager) : List Page := p.kept.getD p.makePages

/-- Keeps the pages for later reads. -/
def read (p : Pager) : Pager := { p with kept := some p.pages }

def pageCount (p : Pager) : Nat := p.pages.length

/-- A page by its index from 0; no lines out of range. -/
def page (p : Pager) (index : Nat) : Page := p.pages.getD index []

def setStyles (p : Pager) (styles : Man.Styles) : Pager :=
  { p with styles := styles, kept := none }

def setMode (p : Pager) (mode : WrapMode) : Pager := { p with mode := mode, kept := none }

def setText (p : Pager) (text : Text) : Pager := { p with text := text, kept := none }

/-- Changes the geometry; the pages are kept when it stays the same. -/
def setGeometry (p : Pager) (height width : Nat) : Pager :=
  if max height 1 = p.height ∧ max width 1 = p.width then p
  else { p with height := max height 1, width := max width 1, kept := none }

/-- Kept pages are those the pager would make again. -/
def Fresh (p : Pager) : Prop := ∀ pages ∈ p.kept, pages = p.makePages

theorem fresh_ofText (text title : Text) (height width : Nat) (mode : WrapMode) :
    (ofText text title height width mode).Fresh := by
  intro _ hk
  cases hk

theorem Fresh.pages_eq {p : Pager} (h : p.Fresh) : p.pages = p.makePages := by
  unfold pages
  cases hk : p.kept with
  | none => rfl
  | some pages => exact h pages hk

theorem Fresh.read {p : Pager} (h : p.Fresh) : p.read.Fresh := by
  intro _ hk
  cases hk
  exact h.pages_eq

theorem fresh_setStyles (p : Pager) (styles : Man.Styles) : (p.setStyles styles).Fresh := by
  intro _ hk
  cases hk

theorem fresh_setMode (p : Pager) (mode : WrapMode) : (p.setMode mode).Fresh := by
  intro _ hk
  cases hk

theorem fresh_setText (p : Pager) (text : Text) : (p.setText text).Fresh := by
  intro _ hk
  cases hk

theorem Fresh.setGeometry {p : Pager} (h : p.Fresh) (height width : Nat) :
    (p.setGeometry height width).Fresh := by
  unfold Pager.setGeometry
  split
  · exact h
  · intro _ hk
    cases hk

/-- A document has at least one page. -/
theorem makePages_ne_nil (p : Pager) : p.makePages ≠ [] := by
  simp only [makePages]
  split
  · simp
  · rename_i h
    simpa using h

/-- The document has one empty page, or each of its pages begins with a line that is not blank. -/
theorem makePages_opens (p : Pager) : p.makePages = [[]] ∨ ∀ q ∈ p.makePages, q.Opens := by
  simp only [makePages]
  split
  · exact .inl rfl
  · exact .inr fun q hq => opens_of_mem_paginate hq

theorem Fresh.pageCount_pos {p : Pager} (h : p.Fresh) : 0 < p.pageCount := by
  unfold pageCount
  rw [h.pages_eq]
  exact List.length_pos_iff.2 p.makePages_ne_nil

end Pager

end TextPager
