import TextPager.Page.Basic

/-!
# Pages are the lines, cut

Grouping lines into pages drops blank lines and nothing else: where a page would open with them, and
one where the last page closes. A blank line that is dropped takes no slot, so it moves every page
boundary after it; what is kept is told by laying the pages out again. `CutInto` does so from left to
right: blank lines, a page, and so on, and blank lines at the end.

The page in progress and the lines after it are cut into the pages that are made from there on. Each
turn of the loop keeps that, and a page is full when it is put away.

**Results.**
* `paginateFrom_cutInto`: the page in progress and the lines after it are cut into the pages.
* `length_eq_of_mem_dropLast`: every page but the last is full.
* `CutInto.filter_eq`: a cut keeps the lines that are not blank, in order.
* `paginate_cuts`: the lines are the pages with blank lines around and between them.
-/
namespace TextPager

/-- Lines without characters. -/
def Blanks (ls : List Text) : Prop := ∀ l ∈ ls, l = []

/-- The lines are pages, one after the other, with blank lines around and between them. -/
def CutInto : List Page → List Text → Prop
  | [], ls => Blanks ls
  | p :: ps, ls => ∃ blanks rest, ls = blanks ++ (p ++ rest) ∧ Blanks blanks ∧ CutInto ps rest

theorem Blanks.nil : Blanks [] := fun _ hl => by cases hl

theorem Blanks.append {a b : List Text} (ha : Blanks a) (hb : Blanks b) : Blanks (a ++ b) :=
  List.forall_mem_append.2 ⟨ha, hb⟩

theorem Blanks.filter_eq {ls : List Text} (h : Blanks ls) : ls.filter (!·.isEmpty) = [] :=
  List.filter_eq_nil_iff.2 fun l hl => by simp [h l hl]

namespace CutInto

theorem blanks_append {blanks ls : List Text} {ps : List Page} (hb : Blanks blanks)
    (h : CutInto ps ls) : CutInto ps (blanks ++ ls) := by
  cases ps with
  | nil => exact hb.append h
  | cons p ps =>
    obtain ⟨more, rest, rfl, hmore, hrest⟩ := h
    exact ⟨blanks ++ more, rest, (List.append_assoc ..).symm, hb.append hmore, hrest⟩

theorem page_append {ls : List Text} {ps : List Page} (p : Page) (h : CutInto ps ls) :
    CutInto (p :: ps) (p ++ ls) :=
  ⟨[], ls, rfl, .nil, h⟩

/-- A cut keeps the lines that are not blank, in order. -/
theorem filter_eq {ls : List Text} {ps : List Page} (h : CutInto ps ls) :
    ps.flatten.filter (!·.isEmpty) = ls.filter (!·.isEmpty) := by
  induction ps generalizing ls with
  | nil => exact (Blanks.filter_eq h).symm
  | cons p ps ih =>
    obtain ⟨blanks, rest, rfl, hblanks, hrest⟩ := h
    rw [List.flatten_cons, List.filter_append, ih hrest, List.filter_append, List.filter_append,
      hblanks.filter_eq, List.nil_append]

/-- The lines of the pages are of the lines that were cut. -/
theorem mem_of_mem {ls : List Text} {ps : List Page} (h : CutInto ps ls) {p : Page} (hp : p ∈ ps)
    {l : Text} (hl : l ∈ p) : l ∈ ls := by
  induction ps generalizing ls with
  | nil => cases hp
  | cons q ps ih =>
    obtain ⟨blanks, rest, rfl, -, hrest⟩ := h
    rcases List.mem_cons.1 hp with rfl | hp
    · exact List.mem_append_right _ (List.mem_append_left _ hl)
    · exact List.mem_append_right _ (List.mem_append_right _ (ih hrest hp))

/-- The blank lines of a cut: those before the first page, and those after each page. -/
theorem exists_gaps {ls : List Text} {ps : List Page} (h : CutInto ps ls) :
    ∃ before gaps, gaps.length = ps.length ∧ (∀ gap ∈ before :: gaps, Blanks gap) ∧
      ls = before ++ (List.zipWith (· ++ ·) ps gaps).flatten := by
  induction ps generalizing ls with
  | nil => exact ⟨ls, [], rfl, List.forall_mem_singleton.2 h, by simp⟩
  | cons p ps ih =>
    obtain ⟨blanks, rest, rfl, hblanks, hrest⟩ := h
    obtain ⟨gap, gaps, hlength, hgaps, rfl⟩ := ih hrest
    exact ⟨blanks, gap :: gaps, by simp [hlength], List.forall_mem_cons.2 ⟨hblanks, hgaps⟩,
      by simp⟩

end CutInto

/-! ## The loop -/

/-- A line is what it opens a page with, and before that a blank line if it opens none. -/
theorem Page.exists_blanks_opening (line : Text) :
    ∃ blanks, Blanks blanks ∧ [line] = blanks ++ Page.opening line := by
  cases line with
  | nil => exact ⟨[[]], List.forall_mem_singleton.2 rfl, rfl⟩
  | cons c line => exact ⟨[], .nil, rfl⟩

/-- What is trimmed off a page is blank. -/
theorem Page.exists_trimLast_append (p : Page) :
    ∃ blanks, Blanks blanks ∧ p = p.trimLast ++ blanks := by
  unfold trimLast
  split
  · rename_i hlast
    obtain ⟨init, rfl⟩ := List.getLast?_eq_some_iff.1 hlast
    exact ⟨[[]], List.forall_mem_singleton.2 rfl, by rw [List.dropLast_concat]⟩
  · exact ⟨[], .nil, (List.append_nil p).symm⟩

/-- The page in progress and the lines after it are cut into the pages made from there on. -/
theorem paginateFrom_cutInto (height : Nat) (page : Page) (ls : List Text) :
    CutInto (paginateFrom height page ls) (page ++ ls) := by
  induction ls generalizing page with
  | nil =>
    rw [paginateFrom, List.append_nil]
    split
    · rename_i hnil
      rw [List.isEmpty_iff.1 hnil]
      exact .nil
    · obtain ⟨blanks, hblanks, hpage⟩ := page.exists_trimLast_append
      exact ⟨[], blanks, hpage, .nil, hblanks⟩
  | cons line ls ih =>
    -- Whatever opens the next page, the line is accounted for by it or by a blank line.
    obtain ⟨blanks, hblanks, hline⟩ := Page.exists_blanks_opening line
    have hopened : CutInto (paginateFrom height (Page.opening line) ls) (line :: ls) := by
      have h := (ih (Page.opening line)).blanks_append hblanks
      rwa [← List.append_assoc, ← hline] at h
    rw [paginateFrom]
    split
    · exact hopened.page_append page
    · split
      · rename_i hnil
        rwa [List.isEmpty_iff.1 hnil]
      · have h := ih (page ++ [line])
        rwa [List.append_assoc] at h

theorem length_eq_of_mem_dropLast_paginateFrom {height : Nat} {page : Page} {ls : List Text}
    {q : Page} (hq : q ∈ (paginateFrom height page ls).dropLast) : q.length = height := by
  induction ls generalizing page with
  | nil =>
    rw [paginateFrom] at hq
    split at hq <;> cases hq
  | cons line ls ih =>
    rw [paginateFrom] at hq
    split at hq
    · rename_i hfull
      cases hrest : paginateFrom height (Page.opening line) ls with
      | nil =>
        rw [hrest] at hq
        cases hq
      | cons next rest =>
        rw [hrest, List.dropLast_cons_cons] at hq
        rcases List.mem_cons.1 hq with rfl | hq
        · exact hfull
        · exact ih (hrest ▸ hq)
    · split at hq
      · exact ih hq
      · exact ih hq

theorem paginate_cutInto (height : Nat) (ls : List Text) : CutInto (paginate height ls) ls :=
  paginateFrom_cutInto (max height 1) [] ls

/-- Every page but the last is full. -/
theorem length_eq_of_mem_dropLast {height : Nat} {ls : List Text} {q : Page}
    (hq : q ∈ (paginate height ls).dropLast) : q.length = max height 1 :=
  length_eq_of_mem_dropLast_paginateFrom hq

/-- **Pages are the lines, cut at blank lines.** The lines are the pages in order, with nothing but
blank lines before the first, between two and after the last. Every page but the last is full, and
the last one is neither empty nor too tall; every page begins with a line that is not blank. So the
lines that are not blank are on the pages, each once and in order. -/
theorem paginate_cuts (height : Nat) (ls : List Text) :
    let pages := paginate height ls
    (∃ before gaps, gaps.length = pages.length ∧ (∀ gap ∈ before :: gaps, ∀ l ∈ gap, l = []) ∧
      ls = before ++ (List.zipWith (· ++ ·) pages gaps).flatten) ∧
    (∀ q ∈ pages.dropLast, q.length = max height 1) ∧
    (∀ q ∈ pages.getLast?, 1 ≤ q.length ∧ q.length ≤ max height 1) ∧
    (∀ q ∈ pages, ∃ line rest, q = line :: rest ∧ line ≠ []) ∧
    pages.flatten.filter (!·.isEmpty) = ls.filter (!·.isEmpty) := by
  intro pages
  have hcut : CutInto pages ls := paginate_cutInto height ls
  refine ⟨hcut.exists_gaps, fun q => length_eq_of_mem_dropLast, fun q hq => ?_,
    fun q => opens_of_mem_paginate, hcut.filter_eq⟩
  have hmem : q ∈ pages := List.mem_of_getLast? hq
  exact ⟨List.length_pos_iff.2 (opens_of_mem_paginate hmem).ne_nil, length_le_of_mem_paginate hmem⟩

/-- Blank lines before the first page, at a page boundary and at the end are dropped, and the one
inside a page is kept. -/
example : paginate 3 [[], ['a'], [], ['b'], [], [], ['c'], []] =
    [[['a'], [], ['b']], [['c']]] := by
  decide

end TextPager
