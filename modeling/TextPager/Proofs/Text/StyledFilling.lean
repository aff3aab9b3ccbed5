import Mathlib.Data.List.Forall2
import TextPager.Proofs.Text.Escapes
import TextPager.Proofs.Text.Filling

/-!
# Filling styled text

Which units share a line depends on their columns only, so styled units are filled as their plain
forms are. Words are another matter: an escape sequence between white space is a word that shows
nothing, and it costs a space, and at the narrowest width a line. Styled text therefore wraps
like its plain form if, and already at one column only if, every word shows a character.

**Results.**
* `groups_map_plain`, `fill_plain`: deleting the sequences of units commutes with filling them.
* `wrap_plain`: deleting the sequences of a text commutes with wrapping it, if its words show.
* `length_wrap_one_le`, `wordsShow_of_length_wrap_one`: at one column the plain form never has
  more lines, and as many only if every word shows.
-/
namespace TextPager.Text

/-- A line with complete escape sequences and no newline. -/
structure Flat (l : Text) : Prop where
  terminated : l.Terminated
  newline : '\n' ∉ l

theorem width_plain (t : Text) : t.plain.width = t.width := by
  rw [width_of_not_mem (not_mem_plain t), length_plain]

/-! ## Flat lines -/

theorem flat_nil : Flat [] := ⟨rfl, by simp⟩

theorem Flat.append {a b : Text} (ha : a.Flat) (hb : b.Flat) : (a ++ b).Flat :=
  ⟨ha.terminated.append hb.terminated, fun h =>
    (List.mem_append.1 h).elim ha.newline hb.newline⟩

theorem flat_of_not_mem {t : Text} (he : esc ∉ t) (hn : '\n' ∉ t) : t.Flat :=
  ⟨terminated_of_not_mem he, hn⟩

theorem not_mem_spaces {c : Char} (hc : c ≠ ' ') (n : Nat) : c ∉ spaces n := fun h =>
  forall_mem_spaces (P := (c ≠ ·)) hc n c h rfl

theorem flat_spaces (n : Nat) : (spaces n).Flat :=
  flat_of_not_mem (not_mem_spaces (by decide) n) (not_mem_spaces (by decide) n)

theorem plain_spaces (n : Nat) : (spaces n).plain = spaces n :=
  plain_of_not_mem (not_mem_spaces (by decide) n)

theorem plain_spaces_append (n : Nat) (t : Text) : (spaces n ++ t).plain = spaces n ++ t.plain := by
  rw [plain_append (flat_spaces n).terminated, plain_spaces]

theorem Flat.joinWords {ws : List Text} (h : ∀ w ∈ ws, w.Flat) : (joinWords ws).Flat := by
  induction ws with
  | nil => exact flat_nil
  | cons w ws ih =>
    obtain ⟨hw, hws⟩ := List.forall_mem_cons.1 h
    cases ws with
    | nil => simpa using hw
    | cons v ws =>
      rw [joinWords_cons_cons]
      exact hw.append ((flat_spaces 1).append (ih hws))

theorem plain_joinWords {ws : List Text} (h : ∀ w ∈ ws, w.Terminated) :
    (joinWords ws).plain = joinWords (ws.map plain) := by
  induction ws with
  | nil => rfl
  | cons w ws ih =>
    obtain ⟨hw, hws⟩ := List.forall_mem_cons.1 h
    cases ws with
    | nil => simp
    | cons v ws =>
      have ih := ih hws
      rw [List.map_cons] at ih
      rw [joinWords_cons_cons, plain_append hw, plain_cons_space (by decide), ih, List.map_cons,
        List.map_cons, joinWords_cons_cons]

theorem neat_joinWords {ws : List Text} (h : ∀ w ∈ ws, w.Neat) : (joinWords ws).Neat := by
  induction ws with
  | nil => exact neat_nil
  | cons w ws ih =>
    obtain ⟨hw, hws⟩ := List.forall_mem_cons.1 h
    cases ws with
    | nil => simpa using hw
    | cons v ws =>
      rw [joinWords_cons_cons]
      exact hw.append ((neat_cons_space (by decide)).2 (ih hws))

/-- The first text is the second with escape sequences in it, which hold no white space. -/
structure Shows (x y : Text) : Prop where
  neat : x.Neat
  newline : '\n' ∉ x
  plain : x.plain = y

namespace Shows

variable {a b x y : Text}

theorem flat (h : Shows x y) : x.Flat := ⟨h.neat.terminated, h.newline⟩

theorem refl (he : esc ∉ x) (hn : '\n' ∉ x) : Shows x x :=
  ⟨neat_of_not_mem he, hn, plain_of_not_mem he⟩

theorem nil : Shows [] [] := refl (by simp) (by simp)

theorem append (h : Shows a x) (k : Shows b y) : Shows (a ++ b) (x ++ y) where
  neat := h.neat.append k.neat
  newline hn := (List.mem_append.1 hn).elim h.newline k.newline
  plain := by rw [plain_append h.neat.terminated, h.plain, k.plain]

theorem joinWords {xs ys : List Text} (h : List.Forall₂ Shows xs ys) :
    Shows (joinWords xs) (joinWords ys) := by
  induction h with
  | nil => exact nil
  | @cons x y xs ys hxy hs ih =>
    cases hs with
    | nil => simpa using hxy
    | cons =>
      rw [joinWords_cons_cons, joinWords_cons_cons]
      exact hxy.append ((refl (x := [' ']) (by decide) (by decide)).append ih)

theorem map_plain {xs ys : List Text} (h : List.Forall₂ Shows xs ys) : xs.map Text.plain = ys := by
  induction h with
  | nil => rfl
  | cons hxy _ ih => rw [List.map_cons, hxy.plain, ih]

theorem forall_mem {xs ys : List Text} (h : List.Forall₂ Shows xs ys) :
    ∀ x ∈ xs, x.Neat ∧ '\n' ∉ x := by
  induction h with
  | nil => simp
  | cons hxy _ ih => exact List.forall_mem_cons.2 ⟨⟨hxy.neat, hxy.newline⟩, ih⟩

end Shows

/-! ## Units -/

theorem groupsFrom_map_plain (rest line used : Nat) (group us : List Text) :
    groupsFrom rest line (group.map plain) used (us.map plain) =
      (groupsFrom rest line group used us).map (List.map plain) := by
  induction us generalizing line used group with
  | nil => rfl
  | cons u us ih =>
    rw [List.map_cons, groupsFrom, groupsFrom, width_plain]
    split
    · rw [List.map_cons, ← ih]
      rfl
    · rw [← ih, List.map_append]
      rfl

/-- Units are grouped by their columns, which deleting escape sequences does not change. -/
theorem groups_map_plain (lead first rest : Nat) (us : List Text) :
    groups lead first rest (us.map plain) = (groups lead first rest us).map (List.map plain) := by
  cases us with
  | nil => rfl
  | cons u us =>
    have h := groupsFrom_map_plain rest first (keptLead lead first (u :: us) + u.width) [u] us
    rw [List.map_cons, groups, groups, ← h, keptLead, keptLead, width_plain]
    rfl

theorem keptLead_map_plain (lead first : Nat) (us : List Text) :
    keptLead lead first (us.map plain) = keptLead lead first us := by
  cases us with
  | nil => rfl
  | cons u us => rw [List.map_cons, keptLead, keptLead, width_plain]

theorem map_plain_setGroups (n : Nat) {gs : List (List Text)}
    (h : ∀ g ∈ gs, ∀ u ∈ g, u.Terminated) :
    (setGroups (spaces n) gs).map plain = setGroups (spaces n) (gs.map (List.map plain)) := by
  cases gs with
  | nil => rfl
  | cons g gs =>
    obtain ⟨hg, hgs⟩ := List.forall_mem_cons.1 h
    have hrest : (gs.map joinWords).map plain = (gs.map (List.map plain)).map joinWords := by
      rw [List.map_map, List.map_map]
      exact List.map_congr_left fun g hg => plain_joinWords (hgs g hg)
    rw [setGroups, List.map_cons, plain_spaces_append, plain_joinWords hg, hrest, List.map_cons,
      setGroups]

/-- Deleting the escape sequences of units commutes with filling them. -/
theorem fill_plain {us : List Text} (h : ∀ u ∈ us, u.Terminated) (lead first rest : Nat) :
    (fill us lead first rest false).map plain = fill (us.map plain) lead first rest false := by
  rw [fill_eq, fill_eq, groups_map_plain, keptLead_map_plain]
  exact map_plain_setGroups _ fun g hg u hu => h u (mem_of_mem_groups hg hu)

theorem flat_setGroups (n : Nat) {gs : List (List Text)} (h : ∀ g ∈ gs, ∀ u ∈ g, u.Flat) :
    ∀ l ∈ setGroups (spaces n) gs, l.Flat := by
  cases gs with
  | nil => intro l hl; cases hl
  | cons g gs =>
    obtain ⟨hg, hgs⟩ := List.forall_mem_cons.1 h
    refine List.forall_mem_cons.2 ⟨(flat_spaces n).append (.joinWords hg), fun l hl => ?_⟩
    obtain ⟨g, hg, rfl⟩ := List.mem_map.1 hl
    exact .joinWords (hgs g hg)

theorem flat_fill {us : List Text} (h : ∀ u ∈ us, u.Flat) (lead first rest : Nat) :
    ∀ l ∈ fill us lead first rest false, l.Flat := by
  rw [fill_eq]
  exact flat_setGroups _ fun g hg u hu => h u (mem_of_mem_groups hg hu)

/-! ## Words -/

theorem flat_of_mem_words {t : Text} (h : t.Neat) {w : Text} (hw : w ∈ t.words) : w.Flat :=
  ⟨(mem_words_neat h hw).terminated, fun hn => by
    have := (mem_words hw).2 '\n' hn
    revert this
    decide⟩

theorem flat_wrap {t : Text} (h : t.Neat) (n : Nat) : ∀ l ∈ t.wrap n, l.Flat :=
  flat_fill (fun _ hw => flat_of_mem_words h hw) _ _ _

/-- Deleting the escape sequences of a text commutes with wrapping it. -/
theorem wrap_plain {t : Text} (h : t.Neat) (hw : t.WordsShow) (n : Nat) :
    (t.wrap n).map plain = t.plain.wrap n := by
  rw [wrap, wrapWith, fill_plain fun w hm => (flat_of_mem_words h hm).terminated,
    ← words_plain_of_wordsShow h hw, ← leadColumns_plain h hw]
  rfl

/-! ## One column -/

theorem length_groupsFrom_one_of_forall {us : List Text} (h : ∀ u ∈ us, 0 < u.width) (used : Nat)
    (group : List Text) : (groupsFrom 1 1 group used us).length = 1 + us.length := by
  induction us generalizing used group with
  | nil => rfl
  | cons u us ih =>
    obtain ⟨hu, hus⟩ := List.forall_mem_cons.1 h
    rw [groupsFrom, if_pos (by omega), List.length_cons, ih hus, List.length_cons]
    omega

theorem countP_lt_length_groupsFrom_one (us : List Text) (used : Nat) (group : List Text) :
    us.countP (fun u => 0 < u.width) < (groupsFrom 1 1 group used us).length := by
  induction us generalizing used group with
  | nil => simp [groupsFrom]
  | cons u us ih =>
    rw [List.countP_cons]
    by_cases hu : 0 < u.width
    · have hbreak : 1 < used + 1 + u.width := by omega
      have := ih u.width [u]
      rw [groupsFrom, if_pos hbreak, List.length_cons]
      simp only [hu, decide_true, if_true]
      omega
    · simp only [hu, decide_false, Bool.false_eq_true, if_false, Nat.add_zero]
      rw [groupsFrom]
      split
      · exact Nat.lt_succ_of_lt (ih _ _)
      · exact ih _ _

/-- Beside a unit that shows, a unit that does not takes a line of its own. -/
theorem countP_add_one_lt_length_groupsFrom_one {us : List Text} {used : Nat} (hused : 0 < used)
    (h : ∃ u ∈ us, u.width = 0) (group : List Text) :
    us.countP (fun u => 0 < u.width) + 1 < (groupsFrom 1 1 group used us).length := by
  induction us generalizing used group with
  | nil => obtain ⟨u, hu, -⟩ := h; cases hu
  | cons u us ih =>
    rw [groupsFrom, if_pos (by omega), List.countP_cons, List.length_cons]
    by_cases hu : 0 < u.width
    · have hus : ∃ v ∈ us, v.width = 0 := by
        obtain ⟨v, hv, hv0⟩ := h
        rcases List.mem_cons.1 hv with rfl | hv
        · omega
        · exact ⟨v, hv, hv0⟩
      have := ih hu hus [u]
      simp only [hu, decide_true, if_true]
      omega
    · have := countP_lt_length_groupsFrom_one us u.width [u]
      simp only [hu, decide_false, Bool.false_eq_true, if_false]
      omega

theorem length_groups_one_of_forall {us : List Text} (h : ∀ u ∈ us, 0 < u.width) (lead : Nat) :
    (groups lead 1 1 us).length = us.length := by
  cases us with
  | nil => rfl
  | cons u us =>
    rw [groups, length_groupsFrom_one_of_forall (List.forall_mem_cons.1 h).2, List.length_cons]
    omega

theorem countP_le_length_groups_one (us : List Text) (lead : Nat) :
    us.countP (fun u => 0 < u.width) ≤ (groups lead 1 1 us).length := by
  cases us with
  | nil => simp
  | cons u us =>
    have := countP_lt_length_groupsFrom_one us (keptLead lead 1 (u :: us) + u.width) [u]
    rw [groups, List.countP_cons]
    split <;> omega

theorem countP_lt_length_groups_one {us : List Text} (h : ∃ u ∈ us, u.width = 0) (lead : Nat) :
    us.countP (fun u => 0 < u.width) < (groups lead 1 1 us).length := by
  cases us with
  | nil => obtain ⟨u, hu, -⟩ := h; cases hu
  | cons u us =>
    rw [groups, List.countP_cons]
    by_cases hu : 0 < u.width
    · have hus : ∃ v ∈ us, v.width = 0 := by
        obtain ⟨v, hv, hv0⟩ := h
        rcases List.mem_cons.1 hv with rfl | hv
        · omega
        · exact ⟨v, hv, hv0⟩
      have hused : 0 < keptLead lead 1 (u :: us) + u.width := by omega
      have := countP_add_one_lt_length_groupsFrom_one hused hus [u]
      simp only [hu, decide_true, if_true]
      exact this
    · have := countP_lt_length_groupsFrom_one us (keptLead lead 1 (u :: us) + u.width) [u]
      simp only [hu, decide_false, Bool.false_eq_true, if_false]
      exact this

theorem length_wrap (t : Text) : (t.wrap 1).length = (groups t.leadColumns 1 1 t.words).length := by
  have hset : ∀ (lead : Text) (gs : List (List Text)), (setGroups lead gs).length = gs.length := by
    intro lead gs
    cases gs <;> simp [setGroups]
  rw [wrap, wrapWith, fill_eq, hset]
  rfl

/-- At one column a plain form has as many lines as words of the text show. -/
theorem length_plain_wrap_one {t : Text} (h : t.Neat) :
    (t.plain.wrap 1).length = t.words.countP (fun w => 0 < w.width) := by
  rw [length_wrap, length_groups_one_of_forall (wordsShow_of_not_mem (not_mem_plain t)),
    words_plain h, List.length_map, List.countP_eq_length_filter]

/-- At one column a plain form never has more lines. -/
theorem length_wrap_one_le {t : Text} (h : t.Neat) :
    (t.plain.wrap 1).length ≤ (t.wrap 1).length := by
  rw [length_plain_wrap_one h, length_wrap]
  exact countP_le_length_groups_one _ _

/-- At one column a plain form has as many lines only if every word shows. -/
theorem wordsShow_of_length_wrap_one {t : Text} (h : t.Neat)
    (hlen : (t.wrap 1).length = (t.plain.wrap 1).length) : t.WordsShow := by
  refine fun w hw => Nat.pos_of_ne_zero fun h0 => ?_
  have hlt := countP_lt_length_groups_one ⟨w, hw, h0⟩ t.leadColumns
  rw [length_plain_wrap_one h, length_wrap] at hlen
  omega

end TextPager.Text
