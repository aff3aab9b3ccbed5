import Mathlib.Data.List.Infix
import TextPager.Page.Basic

/-!
# Taller pages

A page begins at the first line that is not blank, takes as many lines as its height, and leaves the
rest to the pages after it. So what is left after some pages is an ending of the lines. Laid out on
taller pages the same lines leave a shorter ending after as many pages: the next page begins on the
same line or further on, and takes at least as much from there. Which blank lines are dropped differs
between the two, but skipping blank lines cannot put the taller pages behind.

**Results.**
* `paginateFrom_of_ne_nil`: a page in progress takes lines until it is full.
* `paginate_eq`: pages are laid out one by one.
* `dropOpeningBlanks_suffix`, `drop_suffix`: who is ahead stays ahead, over blank lines and over a page.
* `length_paginate_le_of_suffix`, `length_paginate_le`: taller pages are no more.
-/
namespace TextPager

/-- Lines from the first one that is not blank on. -/
def dropOpeningBlanks (ls : List Text) : List Text := ls.dropWhile List.isEmpty

/-! ## Page by page -/

/-- A page in progress takes lines until it is full or they end. Those it leaves are grouped anew. -/
theorem paginateFrom_of_ne_nil {height : Nat} (hh : 0 < height) {page : Page} (hne : page ≠ [])
    (hp : page.length ≤ height) (ls : List Text) :
    paginateFrom height page ls =
      if page.length + ls.length ≤ height then [Page.trimLast (page ++ ls)]
      else (page ++ ls.take (height - page.length)) ::
        paginateFrom height [] (ls.drop (height - page.length)) := by
  have hnot : ¬page.isEmpty = true := by simpa using hne
  induction ls generalizing page with
  | nil => simp [paginateFrom, hnot, hp]
  | cons line ls ih =>
    rw [paginateFrom, if_neg hnot]
    by_cases hfull : page.length = height
    · have hover : ¬page.length + (line :: ls).length ≤ height := by
        rw [List.length_cons]
        omega
      have hroom : ([] : Page).length ≠ height := Nat.ne_of_lt hh
      rw [if_pos hfull, if_neg hover, hfull, Nat.sub_self, List.take_zero, List.append_nil,
        List.drop_zero, paginateFrom, if_neg hroom]
      rfl
    · have hnext : (page ++ [line]).length ≤ height := by
        rw [List.length_append, List.length_singleton]
        omega
      have hroom : height - page.length = height - (page ++ [line]).length + 1 := by
        rw [List.length_append, List.length_singleton] at hnext ⊢
        omega
      rw [if_neg hfull, ih (by simp) hnext (by simp), hroom, List.take_succ_cons,
        List.drop_succ_cons, List.append_assoc, List.append_assoc, List.length_append,
        List.length_singleton, List.length_cons, Nat.add_assoc, Nat.add_comm 1]
      rfl

/-- Blank lines open no page. -/
theorem paginateFrom_nil {height : Nat} (hh : 0 < height) (ls : List Text) :
    paginateFrom height [] ls = paginateFrom height [] (dropOpeningBlanks ls) := by
  have hroom : ([] : Page).length ≠ height := Nat.ne_of_lt hh
  induction ls with
  | nil => rfl
  | cons line ls ih =>
    cases line with
    | nil =>
      rw [paginateFrom, if_neg hroom]
      exact ih
    | cons c line => rfl

/-- Pages are laid out one by one. A page begins at the first line that is not blank; the last one
takes all there is, without a blank line that closes it, and every other one is filled. -/
theorem paginate_eq (height : Nat) (ls : List Text) :
    paginate height ls =
      if dropOpeningBlanks ls = [] then []
      else if (dropOpeningBlanks ls).length ≤ max height 1 then
        [Page.trimLast (dropOpeningBlanks ls)]
      else (dropOpeningBlanks ls).take (max height 1) ::
        paginate height ((dropOpeningBlanks ls).drop (max height 1)) := by
  have hh : 0 < max height 1 := by omega
  have hroom : ([] : Page).length ≠ max height 1 := Nat.ne_of_lt hh
  rw [paginate, paginateFrom_nil hh]
  cases hls : dropOpeningBlanks ls with
  | nil => rfl
  | cons line rest =>
    have hline : line.isEmpty = false := by
      have hhead := List.head_dropWhile_not List.isEmpty (l := ls)
      simp only [dropOpeningBlanks] at hls
      simpa [hls] using hhead
    have hopening : Page.opening line = [line] := by simp [Page.opening, hline]
    have hpage := paginateFrom_of_ne_nil hh (List.cons_ne_nil line []) hh rest
    rw [paginateFrom, if_neg hroom, hopening, if_neg (List.cons_ne_nil line rest),
      List.take_cons hh, List.drop_cons hh]
    simpa [paginate, Nat.add_comm 1] using hpage

/-- So they are counted one by one. -/
theorem length_paginate (height : Nat) (ls : List Text) :
    (paginate height ls).length =
      if dropOpeningBlanks ls = [] then 0
      else (paginate height ((dropOpeningBlanks ls).drop (max height 1))).length + 1 := by
  rw [paginate_eq]
  by_cases hnil : dropOpeningBlanks ls = []
  · rw [if_pos hnil, if_pos hnil, List.length_nil]
  · rw [if_neg hnil, if_neg hnil]
    split
    · rename_i hfit
      rw [List.drop_of_length_le hfit, paginate_nil, List.length_singleton, List.length_nil]
    · rw [List.length_cons]

/-! ## Staying ahead -/

/-- An ending of the lines is ahead; over blank lines it stays ahead. -/
theorem dropOpeningBlanks_suffix {further ls : List Text} (h : further <:+ ls) :
    dropOpeningBlanks further <:+ dropOpeningBlanks ls := by
  obtain ⟨before, rfl⟩ := h
  unfold dropOpeningBlanks
  rw [List.dropWhile_append]
  split
  · exact List.suffix_refl _
  · exact (List.dropWhile_suffix _).trans (List.suffix_append _ _)

/-- It stays ahead over as many lines, or more. -/
theorem drop_suffix {further ls : List Text} (h : further <:+ ls) {low high : Nat}
    (hle : low ≤ high) : further.drop high <:+ ls.drop low := by
  refine List.suffix_of_suffix_length_le ((List.drop_suffix high further).trans h)
    (List.drop_suffix low ls) ?_
  have hlength := h.length_le
  rw [List.length_drop, List.length_drop]
  omega

/-- Taller pages of an ending of the lines are no more than the pages of the lines. -/
theorem length_paginate_le_of_suffix {low high : Nat} (hle : low ≤ high) {further ls : List Text}
    (h : further <:+ ls) : (paginate high further).length ≤ (paginate low ls).length := by
  induction hn : ls.length using Nat.strongRecOn generalizing further ls with
  | ind n ih =>
    have hahead := dropOpeningBlanks_suffix h
    rw [length_paginate high, length_paginate low]
    by_cases hnil : dropOpeningBlanks further = []
    · rw [if_pos hnil]
      exact Nat.zero_le _
    · have hne : dropOpeningBlanks ls ≠ [] := fun hls => hnil (List.suffix_nil.1 (hls ▸ hahead))
      have hpos : 0 < (dropOpeningBlanks ls).length := List.length_pos_iff.2 hne
      have hlength : (dropOpeningBlanks ls).length ≤ ls.length :=
        (List.dropWhile_suffix List.isEmpty).length_le
      -- A page takes a line at least, so what is left is shorter.
      have hshort : ((dropOpeningBlanks ls).drop (max low 1)).length < n := by
        rw [List.length_drop]
        omega
      rw [if_neg hnil, if_neg hne]
      exact Nat.succ_le_succ (ih _ hshort (drop_suffix hahead (by omega)) rfl)

/-- **Taller pages are no more.** Lines take at most as many pages of a height as of any lower one. -/
theorem length_paginate_le {low high : Nat} (hle : low ≤ high) (ls : List Text) :
    (paginate high ls).length ≤ (paginate low ls).length :=
  length_paginate_le_of_suffix hle (List.suffix_refl ls)

/-- Pages of two lines drop both blank lines and pages of three lines keep them, so that they take as
many pages. -/
theorem length_paginate_le_keptBlanks :
    2 ≤ 3 ∧
      (paginate 3 [['a'], ['b'], [], ['c'], ['d'], [], ['e']]).length ≤
        (paginate 2 [['a'], ['b'], [], ['c'], ['d'], [], ['e']]).length ∧
      paginate 2 [['a'], ['b'], [], ['c'], ['d'], [], ['e']] =
        [[['a'], ['b']], [['c'], ['d']], [['e']]] ∧
      paginate 3 [['a'], ['b'], [], ['c'], ['d'], [], ['e']] =
        [[['a'], ['b'], []], [['c'], ['d'], []], [['e']]] :=
  ⟨by decide, length_paginate_le (by decide) _, by decide, by decide⟩

end TextPager
