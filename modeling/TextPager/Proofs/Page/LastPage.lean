import Mathlib.Data.List.DropRight
import TextPager.Page.Basic

/-!
# How the last page closes

Lines often end with several blank ones. They are read like any others: they fill up the page in
progress, and when it is full the rest of them open no page. Of those on the page in progress one is
trimmed at the end of the lines; a page that was full before the end is not looked at again. So there
are two ways for the last page to close with a blank line: two or more of them fit on it, or they
filled it up and more followed.

**Results.**
* `exists_paginateFrom_append`: lines leave full pages and a page in progress behind.
* `paginateFrom_replicate`: what the page in progress becomes when only blank lines follow.
* `paginate_append_blanks`: what blank lines at the end do to the last page.
* `paginate_closes_iff`: when the last page closes with a line that is not blank.
-/
namespace TextPager

/-- How many blank lines the lines end with. -/
def closingBlanks (ls : List Text) : Nat := (ls.rtakeWhile List.isEmpty).length

/-- Lines without the blank lines they end with. -/
def dropClosingBlanks (ls : List Text) : List Text := ls.rdropWhile List.isEmpty

/-- Lines are those without the blank lines at the end, and these blank lines. -/
theorem dropClosingBlanks_append (ls : List Text) :
    dropClosingBlanks ls ++ List.replicate (closingBlanks ls) [] = ls := by
  have hblank : ls.rtakeWhile List.isEmpty = List.replicate (closingBlanks ls) [] :=
    List.eq_replicate_iff.2 ⟨rfl, fun l hl => List.isEmpty_iff.1 (List.mem_rtakeWhile_imp hl)⟩
  rw [← hblank]
  exact List.rdropWhile_append_rtakeWhile ..

/-- What is left is nothing, or closes with a line that is not blank. -/
theorem dropClosingBlanks_cases (ls : List Text) :
    dropClosingBlanks ls = [] ∨ ∃ init line, dropClosingBlanks ls = init ++ [line] ∧ line ≠ [] := by
  by_cases hne : dropClosingBlanks ls = []
  · exact .inl hne
  · have hlast := List.rdropWhile_last_not List.isEmpty ls hne
    refine .inr ⟨_, _, (List.dropLast_concat_getLast hne).symm, fun hnil => hlast ?_⟩
    exact List.isEmpty_iff.2 hnil

/-! ## The page in progress -/

/-- The page in progress after one more line. -/
def Page.next (height : Nat) (page : Page) (line : Text) : Page :=
  if page.length = height ∨ page = [] then opening line else page ++ [line]

theorem Page.length_next_le {height : Nat} (hh : 0 < height) {page : Page}
    (hp : page.length ≤ height) (line : Text) : (page.next height line).length ≤ height := by
  unfold next
  split
  · exact Nat.le_trans (length_opening_le line) hh
  · rw [List.length_append, List.length_singleton]
    omega

theorem Page.length_foldl_next_le {height : Nat} (hh : 0 < height) {page : Page}
    (hp : page.length ≤ height) (ls : List Text) :
    (ls.foldl (next height) page).length ≤ height := by
  induction ls generalizing page with
  | nil => exact hp
  | cons line ls ih => exact ih (length_next_le hh hp line)

/-- A line that is not blank is the last one on the page in progress. -/
theorem Page.getLast?_next {height : Nat} {page : Page} {line : Text} (h : line ≠ []) :
    (page.next height line).getLast? = some line := by
  unfold next
  split
  · cases line with
    | nil => exact absurd rfl h
    | cons c line => rfl
  · exact List.getLast?_concat

/-- A line puts the page in progress away or not, whatever follows. -/
theorem exists_paginateFrom_cons (height : Nat) (page : Page) (line : Text) :
    ∃ done, ∀ more, paginateFrom height page (line :: more) =
      done ++ paginateFrom height (page.next height line) more := by
  by_cases hfull : page.length = height
  · exact ⟨[page], fun more => by simp [paginateFrom, Page.next, hfull]⟩
  · by_cases hnil : page = []
    · subst hnil
      have hroom : ¬0 = height := hfull
      exact ⟨[], fun more => by simp [paginateFrom, Page.next, hroom]⟩
    · exact ⟨[], fun more => by simp [paginateFrom, Page.next, hfull, hnil]⟩

/-- Lines leave full pages and a page in progress behind, whatever follows. -/
theorem exists_paginateFrom_append (height : Nat) (page : Page) (ls : List Text) :
    ∃ done, ∀ more, paginateFrom height page (ls ++ more) =
      done ++ paginateFrom height (ls.foldl (Page.next height) page) more := by
  induction ls generalizing page with
  | nil => exact ⟨[], fun _ => rfl⟩
  | cons line ls ih =>
    obtain ⟨away, haway⟩ := exists_paginateFrom_cons height page line
    obtain ⟨done, hdone⟩ := ih (page.next height line)
    refine ⟨away ++ done, fun more => ?_⟩
    rw [List.cons_append, haway, hdone, List.append_assoc, List.foldl_cons]

/-! ## Blank lines at the end -/

/-- Of so many blank lines at the end, those that stay on a page with room for `room` lines: all but
one if they fit, and otherwise as many as fit. -/
def keptBlanks (room count : Nat) : Nat := if count ≤ room then count - 1 else room

theorem paginateFrom_nil_replicate {height : Nat} (hh : 0 < height) (k : Nat) :
    paginateFrom height [] (List.replicate k []) = [] := by
  induction k with
  | zero => rfl
  | succ k ih =>
    have hopening : Page.opening [] = [] := rfl
    have hroom : ([] : Page).length ≠ height := Nat.ne_of_lt hh
    rw [List.replicate_succ, paginateFrom, if_neg hroom, hopening, ih]
    rfl

/-- When only blank lines follow, they fill up the page in progress. If it takes them all, one is
trimmed. -/
theorem paginateFrom_replicate {height : Nat} (hh : 0 < height) {page : Page} (hne : page ≠ [])
    (hp : page.length ≤ height) (k : Nat) :
    paginateFrom height page (List.replicate k []) =
      if page.length + k ≤ height then [(page ++ List.replicate k []).trimLast]
      else [page ++ List.replicate (height - page.length) []] := by
  induction k generalizing page with
  | zero => simp [paginateFrom, hne, hp]
  | succ k ih =>
    have hopening : Page.opening [] = [] := rfl
    have hnot : ¬page.isEmpty = true := by simpa using hne
    rw [List.replicate_succ, paginateFrom, if_neg hnot]
    by_cases hfull : page.length = height
    · rw [if_pos hfull, hopening, paginateFrom_nil_replicate hh, if_neg (by omega), hfull,
        Nat.sub_self, List.replicate_zero, List.append_nil]
    · have hnext : (page ++ [[]]).length ≤ height := by
        rw [List.length_append, List.length_singleton]
        omega
      have hroom : height - page.length = height - (page.length + 1) + 1 := by omega
      rw [if_neg hfull, ih (by simp) hnext, hroom, List.replicate_succ, List.length_append,
        List.length_singleton, List.append_assoc, List.append_assoc, Nat.add_assoc, Nat.add_comm 1 k]
      rfl

/-- A page that closes with a line that is not blank stays as it is, and of blank lines after it one
is trimmed. -/
theorem Page.trimLast_append_replicate {p : Page} {line : Text} (hp : p.getLast? = some line)
    (hl : line ≠ []) (k : Nat) :
    trimLast (p ++ List.replicate k []) = p ++ List.replicate (k - 1) [] := by
  cases k with
  | zero => simp [trimLast, hp, hl]
  | succ k =>
    have hlast : p ++ List.replicate (k + 1) [] = p ++ List.replicate k [] ++ [[]] := by
      rw [List.replicate_succ', List.append_assoc]
    rw [hlast, trimLast, if_pos List.getLast?_concat, List.dropLast_concat, Nat.add_sub_cancel]

/-- Blank lines at the end change the last page only: it keeps them all but one if they fit on it, and
as many as fit if there are more. -/
theorem paginate_append_blanks (height : Nat) (init : List Text) {line : Text} (hl : line ≠ []) :
    ∃ done last, last.getLast? = some line ∧ last.length ≤ max height 1 ∧
      ∀ k, paginate height (init ++ [line] ++ List.replicate k []) =
        done ++ [last ++ List.replicate (keptBlanks (max height 1 - last.length) k) []] := by
  have hh : 0 < max height 1 := by omega
  obtain ⟨done, hdone⟩ := exists_paginateFrom_append (max height 1) [] (init ++ [line])
  have hlast : ((init ++ [line]).foldl (Page.next (max height 1)) []).getLast? = some line := by
    rw [List.foldl_append]
    exact Page.getLast?_next hl
  have hlength : ((init ++ [line]).foldl (Page.next (max height 1)) []).length ≤ max height 1 :=
    Page.length_foldl_next_le hh (Nat.zero_le _) _
  generalize (init ++ [line]).foldl (Page.next (max height 1)) [] = last at hdone hlast hlength
  have hne : last ≠ [] := by
    rintro rfl
    cases hlast
  refine ⟨done, last, hlast, hlength, fun k => ?_⟩
  rw [paginate, hdone, paginateFrom_replicate hh hne hlength, keptBlanks]
  by_cases hfit : last.length + k ≤ max height 1
  · rw [if_pos hfit, if_pos (by omega), Page.trimLast_append_replicate hlast hl]
  · rw [if_neg hfit, if_neg (by omega)]

/-! ## When the last page closes with text -/

/-- **How the last page closes.** The last page closes with a line that is not blank exactly if the
lines end with at most one blank line, or if the page is full without those they end with. -/
theorem paginate_closes_iff (height : Nat) (ls : List Text) :
    (∀ q ∈ (paginate height ls).getLast?, q.getLast? ≠ some []) ↔
      closingBlanks ls ≤ 1 ∨
        ∀ q ∈ (paginate height (dropClosingBlanks ls)).getLast?, q.length = max height 1 := by
  have hls := dropClosingBlanks_append ls
  rcases dropClosingBlanks_cases ls with hnil | ⟨init, line, hcore, hl⟩
  · have hblank : paginate height ls = [] := by
      rw [← hls, hnil, List.nil_append]
      exact paginateFrom_nil_replicate (by omega) _
    simp [hblank, hnil]
  · obtain ⟨done, last, hlast, hlength, hpages⟩ := paginate_append_blanks height init hl
    have hshort : paginate height (dropClosingBlanks ls) = done ++ [last] := by
      simpa [hcore, keptBlanks] using hpages 0
    have hlong := hpages (closingBlanks ls)
    rw [← hcore, hls] at hlong
    have hclose : (last ++ List.replicate (keptBlanks (max height 1 - last.length)
        (closingBlanks ls)) []).getLast? ≠ some [] ↔
          keptBlanks (max height 1 - last.length) (closingBlanks ls) = 0 := by
      generalize keptBlanks (max height 1 - last.length) (closingBlanks ls) = n
      cases n with
      | zero => simp [hlast, hl]
      | succ n => simp [List.replicate_succ', ← List.append_assoc]
    rw [hlong, hshort, List.getLast?_concat, List.getLast?_concat]
    simp only [Option.mem_some_iff, forall_eq']
    rw [hclose, keptBlanks]
    split <;> omega

/-- Two blank lines behind a page with room for one: the page is put away full, so none is trimmed.
With room for both, one is left. -/
theorem paginate_closes_blank :
    paginate 2 [['a'], [], []] = [[['a'], []]] ∧ paginate 3 [['a'], [], []] = [[['a'], []]] := by
  decide

end TextPager
