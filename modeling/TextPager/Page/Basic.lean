import TextPager.Text.Basic

/-!
# Pages

Display lines are grouped into pages of a height. A blank line that would open a page is dropped
without using a slot, and a blank line that closes the last page is trimmed.

**Results.**
* `length_le_of_mem_paginate`: no page is taller than the height.
* `opens_of_mem_paginate`: every page begins with a line that is not blank.
* `paginate_nil`: no lines make no page.
-/
namespace TextPager

/-- The lines of a page. -/
abbrev Page := List Text

/-- A page without the blank line it may close with. -/
def Page.trimLast (p : Page) : Page := if p.getLast? = some [] then p.dropLast else p

/-- What the line opens a page with: a blank line opens none. -/
def Page.opening (line : Text) : Page := if line.isEmpty then [] else [line]

/-- The pages from the page in progress on. -/
def paginateFrom (height : Nat) : Page → List Text → List Page
  | page, [] => if page.isEmpty then [] else [page.trimLast]
  | page, line :: ls =>
    if page.length = height then page :: paginateFrom height (Page.opening line) ls
    else if page.isEmpty then paginateFrom height (Page.opening line) ls
    else paginateFrom height (page ++ [line]) ls

/-- Lines grouped into pages of a height of at least one line. -/
def paginate (height : Nat) (ls : List Text) : List Page := paginateFrom (max height 1) [] ls

@[simp]
theorem paginate_nil (height : Nat) : paginate height [] = [] := rfl

theorem Page.length_opening_le (line : Text) : (opening line).length ≤ 1 := by
  unfold opening
  split <;> simp

theorem Page.length_trimLast_le (p : Page) : p.trimLast.length ≤ p.length := by
  unfold trimLast
  split <;> simp

theorem length_le_of_mem_paginateFrom {height : Nat} (hh : 0 < height) {page : Page}
    {ls : List Text} (hp : page.length ≤ height) {q : Page}
    (hq : q ∈ paginateFrom height page ls) : q.length ≤ height := by
  induction ls generalizing page with
  | nil =>
    simp only [paginateFrom] at hq
    split at hq
    · cases hq
    · cases List.mem_singleton.1 hq
      exact Nat.le_trans page.length_trimLast_le hp
  | cons line ls ih =>
    have hopen : (Page.opening line).length ≤ height :=
      Nat.le_trans (Page.length_opening_le line) hh
    simp only [paginateFrom] at hq
    split at hq
    · rcases List.mem_cons.1 hq with rfl | hq
      · exact hp
      · exact ih hopen hq
    · split at hq
      · exact ih hopen hq
      · exact ih (by rw [List.length_append, List.length_singleton]; omega) hq

/-- No page is taller than the height. -/
theorem length_le_of_mem_paginate {height : Nat} {ls : List Text} {q : Page}
    (hq : q ∈ paginate height ls) : q.length ≤ max height 1 :=
  length_le_of_mem_paginateFrom (by omega) (Nat.zero_le _) hq

/-! ## How pages open -/

/-- The page begins with a line that is not blank. -/
def Page.Opens (p : Page) : Prop := ∃ line rest, p = line :: rest ∧ line ≠ []

theorem Page.Opens.ne_nil {p : Page} (h : p.Opens) : p ≠ [] := by
  rintro rfl
  obtain ⟨line, rest, h, -⟩ := h
  cases h

theorem Page.opening_opens (line : Text) : opening line = [] ∨ (opening line).Opens := by
  cases line with
  | nil => exact .inl rfl
  | cons c line => exact .inr ⟨c :: line, [], rfl, List.cons_ne_nil c line⟩

theorem Page.Opens.append {p : Page} (h : p.Opens) (ls : List Text) : Opens (p ++ ls) := by
  obtain ⟨line, rest, rfl, hl⟩ := h
  exact ⟨line, rest ++ ls, rfl, hl⟩

/-- A page that closes with a blank line has another line before it. -/
theorem Page.Opens.trimLast {p : Page} (h : p.Opens) : p.trimLast.Opens := by
  obtain ⟨line, rest, rfl, hl⟩ := h
  unfold Page.trimLast
  split
  · rename_i hlast
    cases rest with
    | nil =>
      rw [List.getLast?_singleton, Option.some.injEq] at hlast
      exact absurd hlast hl
    | cons m rest => exact ⟨line, (m :: rest).dropLast, rfl, hl⟩
  · exact ⟨line, rest, rfl, hl⟩

theorem opens_of_mem_paginateFrom {height : Nat} (hh : 0 < height) {page : Page} {ls : List Text}
    (hp : page = [] ∨ page.Opens) {q : Page} (hq : q ∈ paginateFrom height page ls) : q.Opens := by
  induction ls generalizing page with
  | nil =>
    simp only [paginateFrom] at hq
    split at hq
    · cases hq
    · rename_i hne
      cases List.mem_singleton.1 hq
      exact (hp.resolve_left (by simpa using hne)).trimLast
  | cons line ls ih =>
    simp only [paginateFrom] at hq
    split at hq
    · rename_i hfull
      rcases List.mem_cons.1 hq with rfl | hq
      · exact hp.resolve_left fun hnil => by simp [hnil] at hfull; omega
      · exact ih (Page.opening_opens line) hq
    · split at hq
      · exact ih (Page.opening_opens line) hq
      · rename_i hne
        exact ih (.inr ((hp.resolve_left (by simpa using hne)).append [line])) hq

/-- Every page begins with a line that is not blank. -/
theorem opens_of_mem_paginate {height : Nat} {ls : List Text} {q : Page}
    (hq : q ∈ paginate height ls) : q.Opens :=
  opens_of_mem_paginateFrom (by omega) (.inl rfl) hq

end TextPager
