import Mathlib.Algebra.GroupWithZero.Nat
import TextPager.Proofs.Text.Filling

/-!
# Greedy filling takes the fewest lines

Units split into lines in many ways, if only all but single units are to fit on theirs. Greedy filling
makes such a split, and it stays ahead of every other one: with as many lines it has placed at least
as many units, because a line of the other split that reached further would hold all of the greedy
line and the unit that did not fit there. So no other split has fewer lines.

What is kept of a lead takes its columns from the first line. The lines may differ in width otherwise,
and units may be wider than a line or show nothing.

**Results.**
* `groups_lineSplit`: the groups of units that share a line are such a split.
* `length_groups_le`: no other split has fewer lines.
* `fillHanging_wrap_fewest`: filled units, and the words of a wrapped text, take the fewest lines.
-/
namespace TextPager.Text

/-- Columns of units on one line: their own, and one for the space between two neighbours. -/
def lineCost (g : List Text) : Nat := (g.map width).sum + (g.length - 1)

/-- Units may share a line that has room for them. A unit alone may have any line. -/
def MayShare (columns : Nat) (g : List Text) : Prop := lineCost g ≤ columns ∨ g.length = 1

/-- Units split into lines, in order: the first line has a width of its own. -/
structure LineSplit (first rest : Nat) (us : List Text) (gs : List (List Text)) : Prop where
  flatten : gs.flatten = us
  ne_nil : ∀ g ∈ gs, g ≠ []
  head : ∀ g ∈ gs.head?, MayShare first g
  tail : ∀ g ∈ gs.tail, MayShare rest g

/-- Lines that set units with single spaces, and no split of the units has fewer lines. -/
def FewestLines (first rest : Nat) (us lines : List Text) : Prop :=
  ∃ gs, LineSplit first rest us gs ∧ lines = gs.map joinWords ∧
    ∀ other, LineSplit first rest us other → gs.length ≤ other.length

/-! ## The cost of a line -/

theorem lineCost_singleton (u : Text) : lineCost [u] = u.width := by
  simp [lineCost]

theorem lineCost_concat {g : List Text} (hg : g ≠ []) (u : Text) :
    lineCost (g ++ [u]) = lineCost g + 1 + u.width := by
  have hlen : 0 < g.length := List.length_pos_iff.2 hg
  simp only [lineCost, List.map_append, List.sum_append, List.map_singleton, List.sum_singleton,
    List.length_append, List.length_singleton]
  omega

/-- Units cost no more than a line that holds them side by side. -/
theorem lineCost_le_append (a g b : List Text) : lineCost g ≤ lineCost (a ++ g ++ b) := by
  simp only [lineCost, List.map_append, List.sum_append, List.length_append]
  omega

theorem mayShare_singleton (columns : Nat) (u : Text) : MayShare columns [u] := .inr rfl

/-- A line that holds units side by side which cost more than it has columns may not be. -/
theorem not_mayShare_append {columns : Nat} {g : List Text} {u : Text} (hg : g ≠ [])
    (h : columns < lineCost g + 1 + u.width) (a b : List Text) :
    ¬MayShare columns (a ++ g ++ u :: b) := by
  have hlen : 0 < g.length := List.length_pos_iff.2 hg
  have hcost : lineCost (g ++ [u]) ≤ lineCost (a ++ g ++ u :: b) := by
    simpa using lineCost_le_append a (g ++ [u]) b
  rw [lineCost_concat hg] at hcost
  rintro (hle | hone)
  · omega
  · simp only [List.length_append, List.length_cons] at hone
    omega

/-! ## The greedy split

A line in progress holds `group` after `kept` columns of a lead. -/

/-- Every line of the greedy split may be. -/
theorem exists_groupsFrom (rest : Nat) (us : List Text) {line kept : Nat} {group : List Text}
    (hkept : kept ≤ line) (hne : group ≠ []) (hgroup : MayShare (line - kept) group) :
    ∃ g gs, groupsFrom rest line group (kept + lineCost group) us = g :: gs ∧
      MayShare (line - kept) g ∧ ∀ h ∈ gs, MayShare rest h := by
  induction us generalizing line kept group with
  | nil => exact ⟨group, [], rfl, hgroup, by simp⟩
  | cons u us ih =>
    rw [groupsFrom]
    split
    · obtain ⟨g, gs, hgs, hg, hrest⟩ :=
        ih (Nat.zero_le rest) (List.cons_ne_nil u []) (mayShare_singleton rest u)
      rw [lineCost_singleton, Nat.zero_add] at hgs
      rw [hgs]
      exact ⟨group, g :: gs, rfl, hgroup, List.forall_mem_cons.2 ⟨hg, hrest⟩⟩
    · rename_i hfit
      have hcost := lineCost_concat hne u
      have hused : kept + lineCost group + 1 + u.width = kept + lineCost (group ++ [u]) := by omega
      rw [hused]
      exact ih hkept (by simp) (.inl (by omega))

/-- The greedy split stays ahead: let another split have a line where the greedy one has its line in
progress, and begin it no later. Then it takes as many lines from there, at least. -/
theorem length_groupsFrom_le (rest : Nat) (us : List Text) {line kept : Nat} {group : List Text}
    (hkept : kept ≤ line) (hne : group ≠ []) (before : List Text) {h : List Text}
    {hs : List (List Text)}
    (hall : h ++ hs.flatten = before ++ group ++ us) (hh : MayShare (line - kept) h)
    (hhs : ∀ g ∈ hs, MayShare rest g) :
    (groupsFrom rest line group (kept + lineCost group) us).length ≤ hs.length + 1 := by
  induction us generalizing line kept group before h hs with
  | nil => simp [groupsFrom]
  | cons u us ih =>
    rw [groupsFrom]
    split
    · rename_i hwide
      have hover : line - kept < lineCost group + 1 + u.width := by omega
      -- The other line ends where the greedy one does, or before.
      obtain ⟨left, hflatten⟩ : ∃ left, hs.flatten = left ++ u :: us := by
        rcases List.append_eq_append_iff.1 hall with ⟨left, -, hleft⟩ | ⟨more, hmore, hus⟩
        · exact ⟨left, hleft⟩
        · cases more with
          | nil => exact ⟨[], hus.symm⟩
          | cons v more =>
            obtain ⟨rfl, -⟩ := List.cons.inj hus
            exact absurd (hmore ▸ hh) (not_mayShare_append hne hover before more)
      cases hs with
      | nil => simp at hflatten
      | cons h' hs =>
        obtain ⟨hh', hhs'⟩ := List.forall_mem_cons.1 hhs
        have hnext := ih (Nat.zero_le rest) (List.cons_ne_nil u []) left
          (by rw [← List.flatten_cons, hflatten, List.append_assoc, List.singleton_append]) hh' hhs'
        rw [lineCost_singleton, Nat.zero_add] at hnext
        exact Nat.succ_le_succ hnext
    · have hcost := lineCost_concat hne u
      have hused : kept + lineCost group + 1 + u.width = kept + lineCost (group ++ [u]) := by omega
      rw [hused]
      exact ih hkept (by simp) before (by rw [hall]; simp) hh hhs

theorem keptLead_le (lead first : Nat) (us : List Text) : keptLead lead first us ≤ first := by
  unfold keptLead
  split
  · exact Nat.zero_le _
  · split <;> omega

/-- The groups of units that share a line split the units into lines; what is kept of the lead takes
its columns from the first line. -/
theorem groups_lineSplit (lead first rest : Nat) (us : List Text) :
    LineSplit (first - keptLead lead first us) rest us (groups lead first rest us) := by
  have hne : ∀ g ∈ groups lead first rest us, g ≠ [] := fun g => ne_nil_of_mem_groups
  cases us with
  | nil => exact ⟨rfl, hne, by simp [groups], by simp [groups]⟩
  | cons u us =>
    obtain ⟨g, gs, hgs, hg, hrest⟩ := exists_groupsFrom rest us (keptLead_le lead first (u :: us))
      (List.cons_ne_nil u []) (mayShare_singleton _ u)
    rw [lineCost_singleton] at hgs
    have hgroups : groups lead first rest (u :: us) = g :: gs := hgs
    refine ⟨flatten_groups lead first rest (u :: us), hne, ?_, ?_⟩
    · simpa [hgroups] using hg
    · simpa [hgroups] using hrest

/-- No other split of the units has fewer lines. -/
theorem length_groups_le (lead : Nat) {first rest : Nat} {us : List Text}
    {other : List (List Text)} (h : LineSplit (first - keptLead lead first us) rest us other) :
    (groups lead first rest us).length ≤ other.length := by
  cases us with
  | nil => exact Nat.zero_le _
  | cons u us =>
    cases other with
    | nil => exact absurd h.flatten (by simp)
    | cons g gs =>
      have hle := length_groupsFrom_le rest us (keptLead_le lead first (u :: us))
        (List.cons_ne_nil u []) [] h.flatten (h.head g rfl) h.tail
      rwa [lineCost_singleton] at hle

/-! ## Filled lines -/

/-- Without a lead, filled units take the fewest lines. -/
theorem fill_fewest (us : List Text) (first rest : Nat) :
    FewestLines (max first 1) (max rest 1) us (fill us 0 first rest false) := by
  have hkept := keptLead_zero (max first 1) us
  refine ⟨groups 0 (max first 1) (max rest 1) us, ?_, ?_, fun other hother => ?_⟩
  · have hsplit := groups_lineSplit 0 (max first 1) (max rest 1) us
    rwa [hkept] at hsplit
  · rw [fill_eq, hkept]
    cases groups 0 (max first 1) (max rest 1) us <;> rfl
  · refine length_groups_le 0 ?_
    rwa [hkept]

/-- **Greedy filling is valid and best.** Filled units are lines that set them, in order, with single
spaces; every line but one of a single unit fits its width; and no such split of the units has fewer
lines. So are the words of a wrapped text that does not begin with white space. -/
theorem fillHanging_wrap_fewest :
    (∀ (units : List Text) (first rest : Nat),
      FewestLines (max first 1) (max rest 1) units (fillHanging units first rest)) ∧
    ∀ (t : Text) (n : Nat), (∀ c ∈ t.head?, isSpace c = false) →
      FewestLines (max n 1) (max n 1) t.words (t.wrap n) := by
  refine ⟨fun units first rest => fill_fewest units first rest, fun t n h => ?_⟩
  have hlead : t.leadColumns = 0 := by
    cases t with
    | nil => rfl
    | cons c t =>
      have hc : isSpace c = false := h c rfl
      simp [leadColumns, hc]
  rw [wrap, wrapWith, hlead]
  exact fill_fewest t.words n n

/-- Words that are wider than a line, beside words that share one. -/
theorem fillHanging_wrap_fewest_overlong :
    (∀ c ∈ "a supercalifragilistic word or two".toList.head?, isSpace c = false) ∧
      FewestLines 8 8 ["a".toList, "supercalifragilistic".toList, "word".toList, "or".toList,
        "two".toList] ["a".toList, "supercalifragilistic".toList, "word or".toList, "two".toList] := by
  have h : ∀ c ∈ "a supercalifragilistic word or two".toList.head?, isSpace c = false := by
    rintro c ⟨⟩
    decide
  exact ⟨h, fillHanging_wrap_fewest.2 "a supercalifragilistic word or two".toList 8 h⟩

end TextPager.Text
