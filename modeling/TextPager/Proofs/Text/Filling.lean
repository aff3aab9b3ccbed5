import TextPager.Text.Fill
import TextPager.Proofs.Text.Words

/-!
# What greedy filling makes

Filling keeps a line that grows word by word. Here it is told apart into the decision, which words
share a line, and the setting of the words on it. `groups` makes the decision from the widths of
the units alone; `setGroups` sets each group with one space between neighbours, the first one
after what is kept of the lead. `fill_eq` says that filling without breaking words is one after
the other, so every fact about filled lines is a fact about groups.

**Results.**
* `fill_eq`: filled lines are the groups, set.
* `flatten_groups`: the groups hold the units in order, each once.
* `words_fill`, `words_wrap`: filled lines hold the words of what was filled.
* `wrap_joinWords_wrap`: a text without a lead is wrapped as its wrapped lines are, joined again.
-/
namespace TextPager.Text

/-- The groups of units that share a line, given the group in progress and the columns it takes
of its line. The lines after it have `rest` columns. -/
def groupsFrom (rest : Nat) : Nat → List Text → Nat → List Text → List (List Text)
  | _, group, _, [] => [group]
  | line, group, used, u :: us =>
    if line < used + 1 + u.width then group :: groupsFrom rest rest [u] u.width us
    else groupsFrom rest line (group ++ [u]) (used + 1 + u.width) us

/-- What is kept of a lead beside the first unit. -/
def keptLead (lead first : Nat) : List Text → Nat
  | [] => 0
  | u :: _ => if first < lead + u.width then 0 else lead

theorem keptLead_zero (first : Nat) (us : List Text) : keptLead 0 first us = 0 := by
  cases us with
  | nil => rfl
  | cons u us =>
    rw [keptLead]
    split <;> rfl

/-- The groups of units that share a line. -/
def groups (lead first rest : Nat) : List Text → List (List Text)
  | [] => []
  | u :: us => groupsFrom rest first [u] (keptLead lead first (u :: us) + u.width) us

/-- Groups set as lines, the first one after a lead. -/
def setGroups (lead : Text) : List (List Text) → List Text
  | [] => []
  | g :: gs => (lead ++ joinWords g) :: gs.map joinWords

theorem setGroups_nil (gs : List (List Text)) : setGroups [] gs = gs.map joinWords := by
  cases gs <;> rfl

theorem joinWords_append_singleton {g : List Text} (hg : g ≠ []) (u : Text) :
    joinWords (g ++ [u]) = joinWords g ++ ' ' :: u := by
  rw [joinWords_append hg (List.cons_ne_nil u []), joinWords_singleton]

/-! ## Filling is grouping and setting -/

/-- A line in progress that holds a group after a lead. -/
structure Holds (f : Filler) (lead : Text) (group : List Text) : Prop where
  ne_nil : group ≠ []
  words : f.words ≠ 0
  current : f.current = lead ++ joinWords group

/-- A unit that fits beside a group joins it. -/
theorem push_of_fits {f : Filler} {lead : Text} {group : List Text} (h : Holds f lead group)
    (u : Text) (hfit : ¬ f.width < f.used + 1 + u.width) :
    Holds (f.push u u.width) lead (group ++ [u]) ∧ (f.push u u.width).done = f.done ∧
      (f.push u u.width).used = f.used + 1 + u.width ∧
      (f.push u u.width).first = f.first ∧ (f.push u u.width).rest = f.rest := by
  have hp : f.push u u.width = f.append u u.width := by
    simp [Filler.push, Filler.dropLead, h.words, hfit]
  rw [hp]
  refine ⟨⟨by simp, by simp [Filler.append], ?_⟩, rfl, ?_, rfl, rfl⟩
  · rw [joinWords_append_singleton h.ne_nil]
    simp [Filler.append, Filler.gap, h.words, h.current, spaces]
  · simp [Filler.append, Filler.gap, h.words]

/-- A unit that does not fit beside a group starts a line of its own. -/
theorem push_of_not_fits {f : Filler} {lead : Text} {group : List Text} (h : Holds f lead group)
    (u : Text) (hfit : f.width < f.used + 1 + u.width) :
    Holds (f.push u u.width) [] [u] ∧ (f.push u u.width).done = f.current :: f.done ∧
      (f.push u u.width).used = u.width ∧
      (f.push u u.width).first = f.first ∧ (f.push u u.width).rest = f.rest := by
  have hp : f.push u u.width = f.flush.append u u.width := by
    have hd : f.flush.dropLead u.width = f.flush := by
      unfold Filler.dropLead
      split <;> rfl
    simp [Filler.push, h.words, hfit, hd]
  rw [hp]
  refine ⟨⟨by simp, by simp [Filler.append], ?_⟩, ?_, ?_, rfl, rfl⟩
  · simp [Filler.append, Filler.flush, Filler.gap, spaces]
  · simp [Filler.append, Filler.flush, h.words]
  · simp [Filler.append, Filler.flush, Filler.gap]

theorem fill_from (us : List Text) {f : Filler} {lead : Text} {group : List Text}
    (h : Holds f lead group) :
    (us.foldl (Filler.place false) f).lines =
      f.done.reverse ++ setGroups lead (groupsFrom f.rest f.width group f.used us) := by
  have hplace : ∀ (f : Filler) (u : Text), f.place false u = f.push u u.width := fun _ _ => rfl
  induction us generalizing f lead group with
  | nil => simp [Filler.lines, Filler.flush, h.words, h.current, groupsFrom, setGroups]
  | cons u us ih =>
    rw [List.foldl_cons, hplace, groupsFrom]
    split
    · rename_i hfit
      obtain ⟨hh, hd, hu, -, hr⟩ := push_of_not_fits h u hfit
      have hw : (f.push u u.width).width = f.rest := by simp [Filler.width, hd, hr]
      rw [ih hh, hd, hu, hr, hw, setGroups_nil, h.current]
      simp [setGroups]
    · rename_i hfit
      obtain ⟨hh, hd, hu, hf, hr⟩ := push_of_fits h u hfit
      have hw : (f.push u u.width).width = f.width := by simp [Filler.width, hd, hf, hr]
      rw [ih hh, hd, hu, hr, hw]

/-- The first unit stands after the lead, or in place of it. -/
theorem push_start (u : Text) (us : List Text) (lead first rest : Nat) :
    let f := (Filler.start lead first rest).push u u.width
    let kept := keptLead lead (max first 1) (u :: us)
    Holds f (spaces kept) [u] ∧ f.done = [] ∧ f.used = kept + u.width ∧
      f.width = max first 1 ∧ f.rest = max rest 1 := by
  by_cases h : max first 1 < lead + u.width
  · have hp : (Filler.start lead first rest).push u u.width =
        { Filler.start lead first rest with current := u, used := u.width, words := 1 } := by
      simp [Filler.push, Filler.dropLead, Filler.append, Filler.start, Filler.width, Filler.gap, h,
        spaces]
    simp only [hp, keptLead, h, if_true]
    refine ⟨⟨by simp, by simp, by simp [spaces]⟩, ?_, ?_, ?_, ?_⟩ <;>
      simp [Filler.start, Filler.width]
  · have hp : (Filler.start lead first rest).push u u.width =
        { Filler.start lead first rest with
          current := spaces lead ++ u, used := lead + u.width, words := 1 } := by
      simp [Filler.push, Filler.dropLead, Filler.append, Filler.start, Filler.width, Filler.gap, h,
        spaces]
    simp only [hp, keptLead, h, if_false]
    refine ⟨⟨by simp, by simp, by simp⟩, ?_, ?_, ?_, ?_⟩ <;> simp [Filler.start, Filler.width]

/-- Filled lines are the groups, set, the first one after what is kept of the lead. -/
theorem fill_eq (us : List Text) (lead first rest : Nat) :
    fill us lead first rest false =
      setGroups (spaces (keptLead lead (max first 1) us))
        (groups lead (max first 1) (max rest 1) us) := by
  cases us with
  | nil => simp [fill, Filler.lines, Filler.start, Filler.flush, groups, setGroups]
  | cons u us =>
    obtain ⟨hh, hd, hu, hw, hr⟩ := push_start u us lead first rest
    have hplace : (Filler.start lead first rest).place false u =
        (Filler.start lead first rest).push u u.width := rfl
    rw [fill, List.foldl_cons, hplace, fill_from us hh, hd, hu, hw, hr]
    rfl

/-! ## What the groups hold -/

theorem flatten_groupsFrom (rest line used : Nat) (group us : List Text) :
    (groupsFrom rest line group used us).flatten = group ++ us := by
  induction us generalizing line used group with
  | nil => simp [groupsFrom]
  | cons u us ih =>
    rw [groupsFrom]
    split
    · rw [List.flatten_cons, ih, List.singleton_append]
    · rw [ih, List.append_assoc, List.singleton_append]

/-- The groups hold the units in order, each once. -/
theorem flatten_groups (lead first rest : Nat) (us : List Text) :
    (groups lead first rest us).flatten = us := by
  cases us with
  | nil => rfl
  | cons u us => exact flatten_groupsFrom rest first _ [u] us

theorem ne_nil_of_mem_groupsFrom {rest line used : Nat} {group us : List Text} (h : group ≠ []) :
    ∀ g ∈ groupsFrom rest line group used us, g ≠ [] := by
  induction us generalizing line used group with
  | nil => exact List.forall_mem_singleton.2 h
  | cons u us ih =>
    rw [groupsFrom]
    split
    · exact List.forall_mem_cons.2 ⟨h, ih (List.cons_ne_nil u [])⟩
    · exact ih (by simp)

/-- No line is without units. -/
theorem ne_nil_of_mem_groups {lead first rest : Nat} {us g : List Text}
    (h : g ∈ groups lead first rest us) : g ≠ [] := by
  cases us with
  | nil => cases h
  | cons u us => exact ne_nil_of_mem_groupsFrom (List.cons_ne_nil u []) g h

theorem mem_of_mem_groups {lead first rest : Nat} {us g : List Text}
    (hg : g ∈ groups lead first rest us) {u : Text} (hu : u ∈ g) : u ∈ us := by
  rw [← flatten_groups lead first rest us]
  exact List.mem_flatten.2 ⟨g, hg, hu⟩

theorem mem_setGroups {n : Nat} {gs : List (List Text)} {l : Text}
    (h : l ∈ setGroups (spaces n) gs) : ∃ k, ∃ g ∈ gs, l = spaces k ++ joinWords g := by
  cases gs with
  | nil => cases h
  | cons g gs =>
    rcases List.mem_cons.1 h with rfl | h
    · exact ⟨n, g, List.mem_cons_self, rfl⟩
    · obtain ⟨g', hg', rfl⟩ := List.mem_map.1 h
      exact ⟨0, g', List.mem_cons_of_mem _ hg', rfl⟩

/-- A wrapped line is not blank. -/
theorem isBlank_of_mem_wrap {t l : Text} {n : Nat} (h : l ∈ t.wrap n) : l.isBlank = false := by
  rw [wrap, wrapWith, fill_eq] at h
  obtain ⟨k, g, hg, rfl⟩ := mem_setGroups h
  obtain ⟨w, hw⟩ := List.exists_mem_of_ne_nil g (ne_nil_of_mem_groups hg)
  obtain ⟨hne, hspace⟩ := mem_words (mem_of_mem_groups hg hw)
  obtain ⟨c, hc⟩ := List.exists_mem_of_ne_nil w hne
  have hmem : c ∈ spaces k ++ joinWords g :=
    List.mem_append_right _ (mem_joinWords hw hc)
  exact List.all_eq_false.2 ⟨c, hmem, by simp [hspace c hc]⟩

theorem words_setGroups (n : Nat) (gs : List (List Text)) :
    (setGroups (spaces n) gs).flatMap words = gs.flatten.flatMap words := by
  cases gs with
  | nil => rfl
  | cons g gs =>
    simp only [setGroups, List.flatMap_cons, words_spaces_append, words_joinWords, List.flatMap_map,
      List.flatten_cons, List.flatMap_append, List.append_cancel_left_eq]
    induction gs with
    | nil => rfl
    | cons h gs ih => simp [ih]

/-- Filled lines hold the words of the units, in order. -/
theorem words_fill (us : List Text) (lead first rest : Nat) :
    (fill us lead first rest false).flatMap words = us.flatMap words := by
  rw [fill_eq, words_setGroups, flatten_groups]

/-- Wrapped lines hold the words of the text, in order. -/
theorem words_wrap (t : Text) (n : Nat) : (t.wrap n).flatMap words = t.words := by
  rw [wrap, wrapWith, words_fill, flatMap_words_words]

/-- A text with words fills a line at least. -/
theorem wrap_ne_nil {t : Text} (h : t.isBlank = false) (n : Nat) : t.wrap n ≠ [] := by
  intro hnil
  have hwords := words_wrap t n
  rw [hnil, List.flatMap_nil] at hwords
  have hblank : t.isBlank = true := by
    rw [← unspaced_eq_nil_iff, ← flatten_words, ← hwords]
    rfl
  rw [h] at hblank
  cases hblank

/-! ## Filling again -/

/-- A text that does not begin with white space has no lead. -/
theorem leadColumns_eq_zero {t : Text} (h : ∀ c ∈ t.head?, isSpace c = false) :
    t.leadColumns = 0 := by
  cases t with
  | nil => rfl
  | cons c t =>
    have hc : isSpace c = false := h c rfl
    simp [leadColumns, hc]

/-- Words set with single spaces have no lead. -/
theorem leadColumns_joinWords_words (t : Text) : (joinWords t.words).leadColumns = 0 := by
  refine leadColumns_eq_zero ?_
  cases hws : t.words with
  | nil => simp
  | cons w ws =>
    obtain ⟨hne, hspace⟩ := mem_words (hws ▸ List.mem_cons_self : w ∈ t.words)
    obtain ⟨c, w, rfl⟩ := List.exists_cons_of_ne_nil hne
    have hhead : (joinWords ((c :: w) :: ws)).head? = some c := by
      cases ws with
      | nil => rw [joinWords_singleton, List.head?_cons]
      | cons v ws => rw [joinWords_cons_cons, List.cons_append, List.head?_cons]
    rw [hhead]
    rintro d ⟨⟩
    exact hspace c List.mem_cons_self

/-- Without a lead, wrapped lines joined again are the words with single spaces. -/
theorem joinWords_wrap {t : Text} (h : t.leadColumns = 0) (n : Nat) :
    joinWords (t.wrap n) = joinWords t.words := by
  rw [wrap, wrapWith, h, fill_eq, keptLead_zero, spaces, List.replicate_zero, setGroups_nil,
    joinWords_map_joinWords fun g => ne_nil_of_mem_groups, flatten_groups]

/-- So they are wrapped as the text was, to any width. -/
theorem wrap_joinWords_wrap {t : Text} (h : t.leadColumns = 0) (m n : Nat) :
    (joinWords (t.wrap m)).wrap n = t.wrap n := by
  have hwords : (joinWords t.words).words = t.words := by
    rw [words_joinWords, flatMap_words_words]
  rw [joinWords_wrap h, wrap, wrapWith, hwords, leadColumns_joinWords_words, wrap, wrapWith, h]

end TextPager.Text
