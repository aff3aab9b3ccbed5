import TextPager.Proofs.Text.FewestLines
import TextPager.Proofs.Text.FilledLines

/-!
# The widths of filled lines

Words joined on a line take the columns that greedy filling counts for them, so every line of
several words is within its width. A line of one word may be wider; then it is that word and nothing
else, because no lead is kept beside a first word that does not fit.

**Results.**
* `width_joinWords`: joined words take what they cost.
* `width_le_or_mem_of_mem_wrap`: a wrapped line is within the width, or it is a word that is not.
-/
namespace TextPager.Text

theorem spaces_add_append (m n : Nat) (t : Text) :
    spaces (m + n) ++ t = spaces m ++ (spaces n ++ t) := by
  rw [← List.append_assoc, spaces, spaces, spaces, List.replicate_append_replicate]

theorem width_spaces_append (n : Nat) (t : Text) : (spaces n ++ t).width = n + t.width := by
  rw [width_append (flat_spaces n).terminated, width_spaces]

/-- A text filled with spaces takes the columns it is filled to, or stays wider. -/
theorem width_pad {t : Text} (ht : t.Terminated) (n : Nat) : (t.pad n).width = max t.width n := by
  rw [pad, width_append ht, width_spaces]
  omega

/-- Words joined on a line take what they cost. -/
theorem width_joinWords {g : List Text} (h : ∀ u ∈ g, u.Terminated) :
    (joinWords g).width = lineCost g := by
  induction g with
  | nil => rfl
  | cons u g ih =>
    obtain ⟨hu, hg⟩ := List.forall_mem_cons.1 h
    cases g with
    | nil => rw [joinWords_singleton, lineCost_singleton]
    | cons v g =>
      have hspace : ∀ t : Text, width (' ' :: t) = 1 + t.width := fun t =>
        width_append (flat_spaces 1).terminated t
      rw [joinWords_cons_cons, width_append hu, hspace, ih hg]
      simp only [lineCost, List.map_cons, List.sum_cons, List.length_cons]
      omega

/-- A unit alone on the first line fits beside what is kept of the lead, or nothing is kept. -/
theorem keptLead_of_groups_singleton {lead first rest : Nat} {us : List Text}
    {gs : List (List Text)} {u : Text} (h : groups lead first rest us = [u] :: gs) :
    keptLead lead first us + u.width ≤ first ∨ keptLead lead first us = 0 := by
  have hus := flatten_groups lead first rest us
  rw [h, List.flatten_cons, List.singleton_append] at hus
  rw [← hus, keptLead]
  split
  · exact .inr rfl
  · exact .inl (by omega)

/-- A line of so many columns that holds a group of the units, beside what is kept of a lead. -/
structure SetLine (columns : Nat) (us : List Text) (kept : Nat) (group : List Text) : Prop where
  units : ∀ u ∈ group, u ∈ us
  kept_le : kept ≤ columns
  share : MayShare (columns - kept) group
  /-- A single unit has room beside what is kept, or it has the line to itself. -/
  alone : ∀ u, group = [u] → kept + u.width ≤ columns ∨ kept = 0

/-- Every filled line is such a line. -/
theorem exists_setLine_of_mem_fill {us : List Text} {lead n : Nat} {l : Text}
    (hl : l ∈ fill us lead n n false) :
    ∃ kept group, SetLine (max n 1) us kept group ∧ l = spaces kept ++ joinWords group := by
  have hsplit := groups_lineSplit lead (max n 1) (max n 1) us
  have hunits : ∀ g ∈ groups lead (max n 1) (max n 1) us, ∀ u ∈ g, u ∈ us :=
    fun g hg u hu => mem_of_mem_groups hg hu
  rw [fill_eq] at hl
  cases hgs : groups lead (max n 1) (max n 1) us with
  | nil =>
    rw [hgs] at hl
    cases hl
  | cons g gs =>
    rw [hgs] at hl hsplit hunits
    obtain ⟨hfirst, hrest⟩ := List.forall_mem_cons.1 hunits
    rcases List.mem_cons.1 hl with rfl | hl
    · refine ⟨_, g, ⟨hfirst, keptLead_le _ _ _, hsplit.head g rfl, ?_⟩, rfl⟩
      rintro u rfl
      exact keptLead_of_groups_singleton hgs
    · obtain ⟨g', hg', rfl⟩ := List.mem_map.1 hl
      exact ⟨0, g', ⟨hrest g' hg', Nat.zero_le _, hsplit.tail g' hg', fun _ _ => .inr rfl⟩, rfl⟩

/-- A filled line is within the width, or it is a unit that is not. -/
theorem width_le_or_mem_of_mem_fill {us : List Text} (h : ∀ u ∈ us, u.Terminated) {lead n : Nat}
    {l : Text} (hl : l ∈ fill us lead n n false) :
    l.width ≤ max n 1 ∨ (l ∈ us ∧ max n 1 < l.width) := by
  obtain ⟨kept, group, hset, rfl⟩ := exists_setLine_of_mem_fill hl
  have hterm : ∀ u ∈ group, u.Terminated := fun u hu => h u (hset.units u hu)
  have hwidth : (spaces kept ++ joinWords group).width = kept + lineCost group := by
    rw [width_spaces_append, width_joinWords hterm]
  rcases Nat.lt_or_ge (max n 1) (kept + lineCost group) with hover | hfit
  · -- A group that is too wide for what is kept is a single unit, and nothing is kept beside it.
    have hle := hset.kept_le
    obtain ⟨u, rfl⟩ := List.length_eq_one_iff.1 (hset.share.resolve_left (by omega))
    rw [lineCost_singleton] at hover
    obtain rfl := (hset.alone u rfl).resolve_left (by omega)
    have hline : spaces 0 ++ joinWords [u] = u := joinWords_singleton u
    rw [hline]
    exact .inr ⟨hset.units u List.mem_cons_self, by omega⟩
  · exact .inl (hwidth ▸ hfit)

/-- A wrapped line is within the width, or it is a word that is not. -/
theorem width_le_or_mem_of_mem_wrap {t : Text} (h : t.Neat) {n : Nat} {l : Text}
    (hl : l ∈ t.wrap n) : l.width ≤ max n 1 ∨ (l ∈ t.words ∧ max n 1 < l.width) :=
  width_le_or_mem_of_mem_fill (fun _ hw => (mem_words_neat h hw).terminated) hl

end TextPager.Text
