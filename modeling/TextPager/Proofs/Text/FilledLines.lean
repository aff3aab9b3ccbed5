import TextPager.Proofs.Text.StyledFilling

/-!
# What filled lines hold, and how wide they are

Filling does two things to a line in progress: it ends the line, and it sets a piece on it, which is
a word or, when words may be broken, as much of one as the line has room for. What both keep is kept
by the whole of it: `Filler.Kept` says so of a property of fillers and a property of the segments
words are made of, and it is shown once that breaking a word, placing a word and placing many keep
the property then.

**Results.**
* `Filler.Kept.fill`: what is kept holds at the end of filling.
* `mem_of_mem_fill`, `mem_of_mem_wrapWith`: filled lines are made of the characters of the words,
  and spaces.
* `width_le_of_mem_fill`: when words may be broken, no line is wider than a line may be.
-/
namespace TextPager

/-- No more visible characters are split off than were asked for. -/
theorem Text.countP_splitVisible_le (n : Nat) (ss : List Segment) :
    (splitVisible n ss).1.countP Segment.isChar ≤ n := by
  fun_induction splitVisible n ss with
  | case1 n => exact Nat.zero_le n
  | case2 n e ss head tail hsplit ih =>
    rw [hsplit] at ih
    rwa [List.countP_cons_of_neg Bool.false_ne_true]
  | case3 c ss => exact Nat.le_refl 0
  | case4 n c ss head tail hsplit ih =>
    rw [hsplit] at ih
    rw [List.countP_cons_of_pos rfl]
    exact Nat.succ_le_succ ih

theorem Text.width_spaces (n : Nat) : (spaces n).width = n := by
  rw [width_of_not_mem (not_mem_spaces (by decide) n), spaces, List.length_replicate]

namespace Filler

/-- Setting a piece keeps what is kept by its steps: a full line is ended, a lead that leaves too
little room is dropped, and the piece goes on the line. -/
theorem push_of_steps {I : Filler → Prop} {word : Text} {columns : Nat}
    (hflush : ∀ {f}, I f → I f.flush) (hlead : ∀ {f}, I f → I (f.dropLead columns))
    (happend : ∀ {f}, I f → I (f.append word columns)) {f : Filler} (hf : I f) :
    I (f.push word columns) := by
  unfold push
  split
  · exact happend (hlead (hflush hf))
  · exact happend (hlead hf)

/-- A property of fillers is kept by ending a line, and by setting a piece whose segments are of a
kind; if words may be broken, the piece is no wider than a line. -/
structure Kept (breakWords : Bool) (Q : Segment → Prop) (I : Filler → Prop) : Prop where
  flush : ∀ {f}, I f → I f.flush
  push : ∀ {f ss}, I f → (∀ s ∈ ss, Q s) →
    (breakWords = true → ss.countP Segment.isChar ≤ f.width) →
    I (f.push (Text.ofSegments ss) (ss.countP Segment.isChar))

namespace Kept

variable {breakWords : Bool} {Q : Segment → Prop} {I : Filler → Prop} {f : Filler}

/-- A turn of breaking keeps it, and what is left to place is of the kind. -/
theorem breakTurn (h : Kept breakWords Q I) (hf : I f) {rest : List Segment}
    (hrest : ∀ s ∈ rest, Q s) :
    I (f.breakTurn rest).1 ∧ ∀ s ∈ (f.breakTurn rest).2, Q s := by
  have hsplit : ∀ s ∈ (Text.splitVisible f.room rest).1 ++ (Text.splitVisible f.room rest).2, Q s := by
    rwa [Text.splitVisible_append]
  obtain ⟨hhead, htail⟩ := List.forall_mem_append.1 hsplit
  unfold Filler.breakTurn
  split
  · exact ⟨h.flush hf, hrest⟩
  · refine ⟨h.push hf hhead fun _ => ?_, htail⟩
    exact Nat.le_trans (Text.countP_splitVisible_le _ _) (Nat.sub_le _ _)

theorem breakTurns (h : Kept breakWords Q I) (hf : I f) (n : Nat) {rest : List Segment}
    (hrest : ∀ s ∈ rest, Q s) : I (f.breakTurns n rest) := by
  fun_induction Filler.breakTurns n f rest with
  | case1 | case2 => exact hf
  | case3 n f g gs next left hturn ih =>
    obtain ⟨hnext, hleft⟩ := h.breakTurn hf hrest
    rw [hturn] at hnext hleft
    exact ih hnext hleft

theorem place (h : Kept breakWords Q I) (hf : I f) {word : Text} (hw : ∀ s ∈ word.segments, Q s) :
    I (f.place breakWords word) := by
  unfold Filler.place
  split
  · exact h.breakTurns hf _ hw
  · rename_i hnot
    have hpush := h.push hf hw fun hb => Nat.le_of_not_lt fun hlt => hnot ⟨hb, hlt⟩
    rwa [Text.ofSegments_segments] at hpush

/-- What is kept holds at the end: the filled lines are the finished lines of a filler that has it. -/
theorem fill (h : Kept breakWords Q I) {ws : List Text} (hws : ∀ w ∈ ws, ∀ s ∈ w.segments, Q s)
    {lead first rest : Nat} (hstart : I (start lead first rest)) :
    ∃ f : Filler, I f ∧ Text.fill ws lead first rest breakWords = f.done.reverse := by
  have hplaced : I (ws.foldl (Filler.place breakWords) (start lead first rest)) :=
    List.foldlRecOn ws _ hstart fun f hf w hw => h.place hf (hws w hw)
  exact ⟨_, h.flush hplaced, rfl⟩

end Kept

/-! ## Characters -/

/-- Every character that was set so far is of a class. -/
structure MadeOf (P : Char → Prop) (f : Filler) : Prop where
  done : ∀ l ∈ f.done, ∀ c ∈ l, P c
  current : ∀ c ∈ f.current, P c

theorem MadeOf.flush {P : Char → Prop} {f : Filler} (h : MadeOf P f) : MadeOf P f.flush := by
  refine ⟨?_, fun c hc => by cases hc⟩
  unfold Filler.flush
  split
  · exact h.done
  · exact List.forall_mem_cons.2 ⟨h.current, h.done⟩

theorem MadeOf.dropLead {P : Char → Prop} {f : Filler} (h : MadeOf P f) (columns : Nat) :
    MadeOf P (f.dropLead columns) := by
  unfold Filler.dropLead
  split
  · exact ⟨h.done, fun c hc => by cases hc⟩
  · exact h

theorem MadeOf.append {P : Char → Prop} (hs : P ' ') {f : Filler} (h : MadeOf P f) {word : Text}
    (hw : ∀ c ∈ word, P c) (columns : Nat) : MadeOf P (f.append word columns) :=
  ⟨h.done, List.forall_mem_append.2
    ⟨List.forall_mem_append.2 ⟨h.current, Text.forall_mem_spaces hs _⟩, hw⟩⟩

theorem MadeOf.push {P : Char → Prop} (hs : P ' ') {f : Filler} (h : MadeOf P f) {word : Text}
    (hw : ∀ c ∈ word, P c) (columns : Nat) : MadeOf P (f.push word columns) :=
  push_of_steps (fun hf => hf.flush) (fun hf => hf.dropLead columns)
    (fun hf => hf.append hs hw columns) h

/-! ## Columns -/

/-- Lines of `n` columns: a finished line has no more, and a line in progress that has words takes
no more. Every line is complete, so that it can be measured with what follows it. -/
structure Fits (n : Nat) (f : Filler) : Prop where
  first : f.first = n
  rest : f.rest = n
  done : ∀ l ∈ f.done, l.Terminated ∧ l.width ≤ n
  current : f.current.Terminated
  used : f.current.width = f.used
  used_le : f.words ≠ 0 → f.used ≤ n

namespace Fits

variable {n : Nat} {f : Filler}

theorem width_eq (h : Fits n f) : f.width = n := by
  unfold Filler.width
  split
  · exact h.first
  · exact h.rest

theorem flush (h : Fits n f) : Fits n f.flush := by
  refine ⟨h.first, h.rest, ?_, rfl, rfl, fun hne => absurd rfl hne⟩
  unfold Filler.flush
  by_cases hw : f.words = 0
  · rw [if_pos hw]
    exact h.done
  · rw [if_neg hw]
    exact List.forall_mem_cons.2 ⟨⟨h.current, h.used ▸ h.used_le hw⟩, h.done⟩

/-- A lead that leaves too little room is dropped. -/
theorem dropLead (h : Fits n f) (columns : Nat) : Fits n (f.dropLead columns) := by
  unfold Filler.dropLead
  split
  · exact ⟨h.first, h.rest, h.done, rfl, rfl, fun _ => Nat.zero_le n⟩
  · exact h

theorem append (h : Fits n f) {word : Text} (hw : word.Terminated) {columns : Nat}
    (hc : word.width = columns) (hroom : f.used + f.gap + columns ≤ n) :
    Fits n (f.append word columns) := by
  have hgap : (f.current ++ Text.spaces f.gap).Terminated :=
    h.current.append (Text.flat_spaces f.gap).terminated
  refine ⟨h.first, h.rest, h.done, hgap.append hw, ?_, fun _ => hroom⟩
  show (f.current ++ Text.spaces f.gap ++ word).width = f.used + f.gap + columns
  rw [Text.width_append hgap, Text.width_append h.current, Text.width_spaces, h.used, hc]

/-- A piece that is no wider than a line is set where it fits. -/
theorem push (h : Fits n f) {word : Text} (hw : word.Terminated) {columns : Nat}
    (hc : word.width = columns) (hn : columns ≤ n) : Fits n (f.push word columns) := by
  -- The line the piece goes to is without words, or has room for it after a space.
  have hset : ∀ {g : Filler}, Fits n g → (g.words ≠ 0 → g.used + 1 + columns ≤ n) →
      Fits n ((g.dropLead columns).append word columns) := by
    intro g hg hroom
    refine (hg.dropLead columns).append hw hc ?_
    unfold Filler.dropLead
    rw [hg.width_eq]
    by_cases hwords : g.words = 0
    · split
      · simpa [gap, hwords] using hn
      · rename_i hfit
        have hle : g.used + columns ≤ n := Nat.le_of_not_lt fun hlt => hfit ⟨hwords, hlt⟩
        simpa [gap, hwords] using hle
    · simpa [gap, hwords] using hroom hwords
  unfold Filler.push
  split
  · exact hset h.flush fun hne => absurd rfl hne
  · rename_i hfit
    rw [h.width_eq] at hfit
    exact hset h fun hwords => Nat.le_of_not_lt fun hlt => hfit ⟨hwords, hlt⟩

/-- Breaking words keeps it: ending a line does, and setting a piece that is no wider than a line. -/
theorem kept (n : Nat) : Kept true Segment.Whole (Fits n) where
  flush hf := hf.flush
  push hf hss hwidth := by
    obtain ⟨hterm, hsegments⟩ := Text.segments_ofSegments hss
    exact hf.push hterm (congrArg (List.countP Segment.isChar) hsegments) (hf.width_eq ▸ hwidth rfl)

/-- An empty line after a lead of spaces. -/
theorem start (lead n : Nat) : Fits (max n 1) (start lead n n) :=
  ⟨rfl, rfl, fun l hl => (by cases hl), (Text.flat_spaces lead).terminated, Text.width_spaces lead,
    fun hne => absurd rfl hne⟩

end Fits

end Filler

namespace Text

/-- Filled lines are made of the characters of the words, and spaces. -/
theorem mem_of_mem_fill {P : Char → Prop} (hs : P ' ') {ws : List Text} (h : ∀ w ∈ ws, ∀ c ∈ w, P c)
    {lead first rest : Nat} {breakWords : Bool} {l : Text}
    (hl : l ∈ fill ws lead first rest breakWords) : ∀ c ∈ l, P c := by
  have hkept : Filler.Kept breakWords (fun s => ∀ c ∈ s.toText, P c) (Filler.MadeOf P) :=
    ⟨fun hf => hf.flush, fun hf hss _ => hf.push hs (List.forall_mem_flatMap.2 hss) _⟩
  have hsegments : ∀ w ∈ ws, ∀ s ∈ w.segments, ∀ c ∈ s.toText, P c := fun w hw s hsw c hc =>
    h w hw c (ofSegments_segments w ▸ List.mem_flatMap.2 ⟨s, hsw, hc⟩)
  have hstart : Filler.MadeOf P (Filler.start lead first rest) :=
    ⟨fun l hl => (by cases hl), forall_mem_spaces hs lead⟩
  obtain ⟨f, hf, hfill⟩ := hkept.fill hsegments hstart
  rw [hfill, List.mem_reverse] at hl
  exact hf.done l hl

/-- The lines of a wrapped text are made of its characters, and spaces. -/
theorem mem_of_mem_wrapWith {P : Char → Prop} (hs : P ' ') {t : Text} (h : ∀ c ∈ t, P c)
    {breakWords : Bool} {n : Nat} {l : Text} (hl : l ∈ t.wrapWith breakWords n) : ∀ c ∈ l, P c :=
  mem_of_mem_fill hs (fun _ hw c hc => h c (mem_of_mem_words hw hc)) hl

/-- When words may be broken, no line is wider than a line may be. -/
theorem width_le_of_mem_fill {ws : List Text} (h : ∀ w ∈ ws, w.Terminated) {lead n : Nat} {l : Text}
    (hl : l ∈ fill ws lead n n true) : l.width ≤ max n 1 := by
  obtain ⟨f, hf, hfill⟩ :=
    (Filler.Fits.kept (max n 1)).fill (fun w hw => segments_whole (h w hw)) (Filler.Fits.start lead n)
  rw [hfill, List.mem_reverse] at hl
  exact (hf.done l hl).2

end Text

end TextPager
