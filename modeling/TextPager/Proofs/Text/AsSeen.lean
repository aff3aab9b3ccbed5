import TextPager.Proofs.Text.StyledFilling

/-!
# Lines as they are seen

Layout looks at lines twice after they are filled: a blank line gets no margin, and a carriage
return at the end of a line goes. Escape sequences are neither blank nor a carriage return, so a
line may look blank without being blank, or seem to end in a carriage return that a sequence
follows. `BlankAsSeen` and `ReturnAsSeen` say that it does not. Both pass from the units of a
line to the line and, where a unit is alone on its line, back again.

**Results.**
* `unitwise_blankAsSeen`, `unitwise_returnAsSeen`: both are properties of the units of a line.
* `aloneOrHidden_groups`: at one column a unit that shows is alone on its line.
* `plain_dropReturn_iff`: a line loses its carriage return as its plain form does exactly if it
  ends in one as seen.
-/
namespace TextPager.Text

/-- A line that looks blank is blank. -/
def BlankAsSeen (l : Text) : Prop := l.plain.isBlank = true → l.isBlank = true

instance (l : Text) : Decidable l.BlankAsSeen :=
  inferInstanceAs (Decidable (l.plain.isBlank = true → l.isBlank = true))

/-- A line that seems to end in a carriage return ends in one. -/
def ReturnAsSeen (l : Text) : Prop := l.plain.getLast? = some '\r' → l.getLast? = some '\r'

instance (l : Text) : Decidable l.ReturnAsSeen :=
  inferInstanceAs (Decidable (l.plain.getLast? = some '\r' → l.getLast? = some '\r'))

/-- White space shows as it is. -/
theorem not_mem_of_isBlank {t : Text} (h : t.isBlank = true) : esc ∉ t := fun he => by
  have := List.all_eq_true.1 h esc he
  rw [isSpace_esc] at this
  cases this

theorem isBlank_plain {t : Text} (h : t.isBlank = true) : t.plain.isBlank = true := by
  rwa [plain_of_not_mem (not_mem_of_isBlank h)]

theorem blankAsSeen_of_not_mem {t : Text} (h : esc ∉ t) : t.BlankAsSeen := fun hb => by
  rwa [plain_of_not_mem h] at hb

theorem blankAsSeen_of_not_isBlank {t : Text} (h : t.plain.isBlank = false) : t.BlankAsSeen :=
  fun hb => by rw [h] at hb; cases hb

theorem blankAsSeen_spaces_append {n : Nat} {t : Text} :
    (spaces n ++ t).BlankAsSeen ↔ t.BlankAsSeen := by
  simp only [BlankAsSeen, plain_spaces_append, isBlank_append, isBlank_spaces, Bool.true_and]

/-! ## Carriage returns -/

theorem getLast?_spaces_ne (n : Nat) : (spaces n).getLast? ≠ some '\r' := fun h =>
  not_mem_spaces (by decide) n (List.mem_of_getLast? h)

theorem returnAsSeen_spaces_append {n : Nat} {t : Text} :
    (spaces n ++ t).ReturnAsSeen ↔ t.ReturnAsSeen := by
  have hlast : ∀ u : Text, (spaces n ++ u).getLast? = some '\r' ↔ u.getLast? = some '\r' := by
    intro u
    rw [List.getLast?_append]
    cases hu : u.getLast? with
    | none => simpa using getLast?_spaces_ne n
    | some c => simp
  simp only [ReturnAsSeen, plain_spaces_append, hlast]

theorem returnAsSeen_append_space {a t : Text} (ha : a.Terminated) :
    ReturnAsSeen (a ++ ' ' :: t) ↔ t.ReturnAsSeen := by
  have hlast : ∀ b u : Text, (b ++ ' ' :: u).getLast? = some '\r' ↔ u.getLast? = some '\r' := by
    intro b u
    cases u with
    | nil => simp
    | cons c u => simp [List.getLast?_append]
  have hplain : plain (a ++ ' ' :: t) = a.plain ++ ' ' :: t.plain := by
    rw [plain_append ha, plain_cons_space (by decide)]
  simp only [ReturnAsSeen, hplain, hlast]

/-- A neat line that ends in a carriage return is seen to do so. -/
theorem getLast?_plain {t : Text} (h : t.Neat) (hl : t.getLast? = some '\r') :
    t.plain.getLast? = some '\r' ∧ plain t.dropLast = t.plain.dropLast := by
  obtain ⟨a, rfl⟩ := List.getLast?_eq_some_iff.1 hl
  obtain ⟨ha, -⟩ := h.split (by decide)
  have hr : plain ['\r'] = ['\r'] := plain_of_not_mem (by decide)
  rw [plain_append ha.terminated, hr, List.dropLast_concat, List.dropLast_concat]
  exact ⟨List.getLast?_concat, rfl⟩

/-- A line loses its carriage return as its plain form does exactly if it ends in one as seen. -/
theorem plain_dropReturn_iff {t : Text} (h : t.Neat) :
    (dropReturn t).plain = dropReturn t.plain ↔ t.ReturnAsSeen := by
  by_cases hl : t.getLast? = some '\r'
  · obtain ⟨h1, h2⟩ := getLast?_plain h hl
    simp [dropReturn, hl, h1, h2, ReturnAsSeen]
  · by_cases hp : t.plain.getLast? = some '\r'
    · have hlen : t.plain ≠ t.plain.dropLast := by
        intro he
        have := congrArg List.length he
        rw [List.length_dropLast] at this
        have hpos : 0 < t.plain.length := List.length_pos_iff.2 (fun h0 => by simp [h0] at hp)
        omega
      simp [dropReturn, hl, hp, ReturnAsSeen, hlen]
    · simp [dropReturn, hl, hp, ReturnAsSeen]

theorem Flat.dropReturn {t : Text} (hn : t.Neat) (h : '\n' ∉ t) : (dropReturn t).Flat := by
  unfold Text.dropReturn
  split
  · rename_i hl
    obtain ⟨a, rfl⟩ := List.getLast?_eq_some_iff.1 hl
    obtain ⟨ha, -⟩ := hn.split (by decide)
    rw [List.dropLast_concat]
    exact ⟨ha.terminated, fun hm => h (List.mem_append_left _ hm)⟩
  · exact ⟨hn.terminated, h⟩

theorem blankAsSeen_dropReturn {t : Text} (h : t.Neat) (hr : t.ReturnAsSeen) :
    (dropReturn t).BlankAsSeen ↔ t.BlankAsSeen := by
  have hdrop : ∀ u : Text, (dropReturn u).isBlank = u.isBlank := by
    intro u
    unfold dropReturn
    split
    · rename_i hl
      obtain ⟨a, rfl⟩ := List.getLast?_eq_some_iff.1 hl
      rw [List.dropLast_concat, isBlank_append]
      exact (Bool.and_true _).symm
    · rfl
  rw [BlankAsSeen, (plain_dropReturn_iff h).2 hr, hdrop, hdrop]
  rfl

/-! ## Units of a line -/

/-- A property of lines that is one of the units on them. -/
structure Unitwise (Q : Text → Prop) : Prop where
  line : ∀ k g, (∀ u ∈ g, Neat u ∧ Q u) → Q (spaces k ++ joinWords g)
  /-- A unit alone on a line has it if the line does. -/
  alone : ∀ k u, Q (spaces k ++ u) → Q u
  /-- Units that show nothing have it if their line does. -/
  hidden : ∀ k g, (∀ u ∈ g, Neat u ∧ u.width = 0) → Q (spaces k ++ joinWords g) → ∀ u ∈ g, Q u

theorem terminated_of_neat {Q : Text → Prop} {g : List Text} (h : ∀ u ∈ g, Neat u ∧ Q u) :
    ∀ u ∈ g, Terminated u := fun u hu => (h u hu).1.terminated

theorem unitwise_blankAsSeen : Unitwise BlankAsSeen where
  line k g h := by
    rw [blankAsSeen_spaces_append]
    intro hb
    rw [plain_joinWords (terminated_of_neat h), isBlank_joinWords, List.all_map] at hb
    rw [isBlank_joinWords]
    exact List.all_eq_true.2 fun u hu => (h u hu).2 (List.all_eq_true.1 hb u hu)
  alone k u h := blankAsSeen_spaces_append.1 h
  hidden k g h hl := by
    rw [blankAsSeen_spaces_append] at hl
    have hplain : (joinWords g).plain.isBlank = true := by
      rw [plain_joinWords (terminated_of_neat h), isBlank_joinWords, List.all_map]
      exact List.all_eq_true.2 fun u hu => by
        rw [Function.comp_apply, plain_eq_nil_iff.2 (h u hu).2]
        rfl
    have hblank := hl hplain
    rw [isBlank_joinWords] at hblank
    exact fun u hu _ => List.all_eq_true.1 hblank u hu

theorem unitwise_returnAsSeen : Unitwise ReturnAsSeen where
  line k g h := by
    rw [returnAsSeen_spaces_append]
    rcases List.eq_nil_or_concat g with rfl | ⟨g, u, rfl⟩
    · exact fun hr => by cases hr
    · rw [List.concat_eq_append] at h ⊢
      obtain ⟨hg, hu⟩ := List.forall_mem_append.1 h
      have hu := (List.forall_mem_singleton.1 hu).2
      by_cases hnil : g = []
      · subst hnil
        simpa using hu
      · -- A space stands before the last unit, so the carriage return is the unit's own.
        have hneat := neat_joinWords fun v hv => (hg v hv).1
        rw [joinWords_append_singleton hnil, returnAsSeen_append_space hneat.terminated]
        exact hu
  alone k u h := returnAsSeen_spaces_append.1 h
  hidden k g h _ := by
    intro u hu hr
    rw [plain_eq_nil_iff.2 (h u hu).2] at hr
    cases hr

/-! ## One column -/

/-- A group is one unit, or shows nothing. -/
def AloneOrHidden (g : List Text) : Prop := (∃ u, g = [u]) ∨ ∀ u ∈ g, u.width = 0

theorem aloneOrHidden_groupsFrom {used : Nat} {group us : List Text}
    (h : (∃ u, group = [u] ∧ used = u.width) ∨ ∀ u ∈ group, u.width = 0) :
    ∀ g ∈ groupsFrom 1 1 group used us, AloneOrHidden g := by
  have hgroup : AloneOrHidden group := h.imp (fun ⟨u, hu, _⟩ => ⟨u, hu⟩) id
  induction us generalizing used group with
  | nil => exact List.forall_mem_singleton.2 hgroup
  | cons u us ih =>
    rw [groupsFrom]
    split
    · exact List.forall_mem_cons.2 ⟨hgroup, ih (.inl ⟨u, rfl, rfl⟩) (.inl ⟨u, rfl⟩)⟩
    · rename_i hfit
      have hused : used = 0 := by omega
      have hwidth : u.width = 0 := by omega
      have hzero : ∀ v ∈ group, v.width = 0 := by
        rcases h with ⟨v, rfl, hv⟩ | h
        · exact List.forall_mem_singleton.2 (by omega)
        · exact h
      have hall := List.forall_mem_append.2 ⟨hzero, List.forall_mem_singleton.2 hwidth⟩
      exact ih (.inr hall) (.inr hall)

/-- At one column a unit that shows is alone on its line. -/
theorem aloneOrHidden_groups (us : List Text) : ∀ g ∈ groups 0 1 1 us, AloneOrHidden g := by
  cases us with
  | nil => intro g hg; cases hg
  | cons u us =>
    rw [groups, keptLead_zero, Nat.zero_add]
    exact aloneOrHidden_groupsFrom (.inl ⟨u, rfl, rfl⟩)

/-- A property of units is one of their line, alone or hidden. -/
theorem Unitwise.units {Q : Text → Prop} (hQ : Unitwise Q) {k : Nat} {g : List Text}
    (hg : AloneOrHidden g) (hneat : ∀ u ∈ g, u.Neat) (h : Q (spaces k ++ joinWords g)) :
    ∀ u ∈ g, Q u := by
  rcases hg with ⟨u, rfl⟩ | hzero
  · rw [joinWords_singleton] at h
    exact List.forall_mem_singleton.2 (hQ.alone k u h)
  · exact hQ.hidden k g (fun u hu => ⟨hneat u hu, hzero u hu⟩) h

end TextPager.Text
