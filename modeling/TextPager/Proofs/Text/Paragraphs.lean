import Mathlib.Data.List.Chain
import TextPager.Reflow
import TextPager.Proofs.Text.Filling

/-!
# Paragraphs and bullets

Detection groups the lines of a document into stretches: the lines of a paragraph, or a bullet line on
its own. Every line that is not blank is in just one stretch, and none of them is empty. So a stretch
is shown as lines that are not blank, with an empty line after them: a paragraph as it is filled, a
bullet line as it stands.

What detection shows is one stretch below the other, each set apart by the empty line after it. How
the output looks follows from that alone: where it is blank, and that bullet lines stand alone.

**Results.**
* `flatMap_lines_stretches`: stretches hold the lines that are not blank, in order.
* `wellFormed_of_mem_stretches`: no stretch is empty, and prose and bullets are kept apart.
* `display_eq`, `solidBlock_lines_filled`: a stretch is shown as lines that are not blank, and an empty one.
* `reflow_detect_layout`: detection keeps the words and the bullets, in a clean layout.
-/
namespace TextPager

theorem isBlank_of_isBullet {line : Text} (h : isBullet line = true) : line.isBlank = false := by
  obtain ⟨lead, c, rest, rfl, -, -⟩ := (isBullet_iff line).1 h
  exact List.all_eq_false.2 ⟨'*', List.mem_append_right _ List.mem_cons_self, by decide⟩

/-- The line is of a paragraph: neither blank nor a bullet line. -/
structure IsProse (line : Text) : Prop where
  not_blank : line.isBlank = false
  not_bullet : isBullet line = false

/-- The three kinds of lines. -/
theorem line_cases (line : Text) : line.isBlank = true ∨ isBullet line = true ∨ IsProse line := by
  cases hblank : line.isBlank with
  | true => exact .inl rfl
  | false =>
    cases hbullet : isBullet line with
    | true => exact .inr (.inl rfl)
    | false => exact .inr (.inr ⟨hblank, hbullet⟩)

namespace Stretch

/-- The lines of a stretch. -/
def lines : Stretch → List Text
  | prose ls => ls
  | bullet line => [line]

/-- A paragraph has lines, all of them prose, and a bullet line is one. -/
def WellFormed : Stretch → Prop
  | prose ls => ls ≠ [] ∧ ∀ line ∈ ls, IsProse line
  | bullet line => isBullet line = true

/-- The stretch of a paragraph that ends; none if it has no lines. -/
def ofProse (ls : List Text) : List Stretch := if ls.isEmpty then [] else [prose ls]

theorem ofProse_of_ne_nil {ls : List Text} (h : ls ≠ []) : ofProse ls = [prose ls] := by
  simp [ofProse, h]

theorem flatMap_lines_ofProse (ls : List Text) : (ofProse ls).flatMap lines = ls := by
  cases ls <;> simp [ofProse, lines]

theorem wellFormed_of_mem_ofProse {ls : List Text} (h : ∀ line ∈ ls, IsProse line) {st : Stretch}
    (hst : st ∈ ofProse ls) : st.WellFormed := by
  cases ls with
  | nil => cases hst
  | cons line ls =>
    rw [List.mem_singleton.1 hst]
    exact ⟨List.cons_ne_nil line ls, h⟩

end Stretch

/-! ## Grouping line by line -/

section Grouping

variable {line : Text} (before ls : List Text)

theorem stretches_nil : stretches before [] = Stretch.ofProse before := rfl

theorem stretches_cons_blank (h : line.isBlank = true) :
    stretches before (line :: ls) = Stretch.ofProse before ++ stretches [] ls := by
  rw [stretches, if_pos h]
  rfl

theorem stretches_cons_bullet (h : isBullet line = true) :
    stretches before (line :: ls) = Stretch.ofProse before ++ .bullet line :: stretches [] ls := by
  rw [stretches, if_neg (by simp [isBlank_of_isBullet h]), if_pos h]
  rfl

theorem stretches_cons_prose (h : IsProse line) :
    stretches before (line :: ls) = stretches (before ++ [line]) ls := by
  rw [stretches, if_neg (by simp [h.not_blank]), if_neg (by simp [h.not_bullet])]

end Grouping

/-- Stretches hold the lines that are not blank, in order, after those of the paragraph in progress. -/
theorem flatMap_lines_stretches (before ls : List Text) :
    (stretches before ls).flatMap Stretch.lines = before ++ ls.filter (!·.isBlank) := by
  induction ls generalizing before with
  | nil => rw [stretches_nil, Stretch.flatMap_lines_ofProse, List.filter_nil, List.append_nil]
  | cons line ls ih =>
    rcases line_cases line with h | h | h
    · rw [stretches_cons_blank before ls h, List.flatMap_append, Stretch.flatMap_lines_ofProse, ih,
        List.nil_append, List.filter_cons_of_neg (by simp [h])]
    · rw [stretches_cons_bullet before ls h, List.flatMap_append, Stretch.flatMap_lines_ofProse,
        List.flatMap_cons, ih, List.nil_append,
        List.filter_cons_of_pos (by simp [isBlank_of_isBullet h])]
      rfl
    · rw [stretches_cons_prose before ls h, ih, List.filter_cons_of_pos (by simp [h.not_blank]),
        List.append_assoc, List.singleton_append]

/-- What is grouped into stretches are the lines, and those of the paragraph in progress. -/
theorem mem_of_mem_stretches {before ls : List Text} {st : Stretch} (h : st ∈ stretches before ls)
    {l : Text} (hl : l ∈ st.lines) : l ∈ before ++ ls := by
  have hmem : l ∈ (stretches before ls).flatMap Stretch.lines := List.mem_flatMap.2 ⟨st, h, hl⟩
  rw [flatMap_lines_stretches] at hmem
  rcases List.mem_append.1 hmem with hmem | hmem
  · exact List.mem_append_left _ hmem
  · exact List.mem_append_right _ (List.mem_filter.1 hmem).1

/-- No stretch is empty, and prose and bullets are kept apart. -/
theorem wellFormed_of_mem_stretches {before ls : List Text} (hbefore : ∀ line ∈ before, IsProse line)
    {st : Stretch} (hst : st ∈ stretches before ls) : st.WellFormed := by
  induction ls generalizing before with
  | nil => exact Stretch.wellFormed_of_mem_ofProse hbefore hst
  | cons line ls ih =>
    have hnil := List.forall_mem_nil IsProse
    rcases line_cases line with h | h | h
    · rw [stretches_cons_blank before ls h] at hst
      rcases List.mem_append.1 hst with hst | hst
      · exact Stretch.wellFormed_of_mem_ofProse hbefore hst
      · exact ih hnil hst
    · rw [stretches_cons_bullet before ls h] at hst
      rcases List.mem_append.1 hst with hst | hst
      · exact Stretch.wellFormed_of_mem_ofProse hbefore hst
      · rcases List.mem_cons.1 hst with rfl | hst
        · exact h
        · exact ih hnil hst
    · rw [stretches_cons_prose before ls h] at hst
      exact ih (List.forall_mem_append.2 ⟨hbefore, List.forall_mem_singleton.2 h⟩) hst

/-! ## What a stretch shows -/

/-- There are lines, and none of them is blank. -/
structure SolidBlock (ls : List Text) : Prop where
  ne_nil : ls ≠ []
  not_blank : ∀ l ∈ ls, l.isBlank = false

namespace Stretch

/-- The stretch with the lines it is shown in. -/
def filled (width : Nat) : Stretch → Stretch
  | prose ls => prose ((Text.joinWords ls).wrap width)
  | bullet line => bullet line

theorem display_eq (width : Nat) (st : Stretch) :
    st.display width = (st.filled width).lines ++ [[]] := by
  cases st <;> rfl

theorem flatMap_words_lines_filled (width : Nat) (st : Stretch) :
    (st.filled width).lines.flatMap Text.words = st.lines.flatMap Text.words := by
  cases st with
  | prose ls => exact (Text.words_wrap _ width).trans (Text.words_joinWords ls)
  | bullet line => rfl

/-- A stretch is shown in lines, none of them blank. -/
theorem solidBlock_lines_filled {st : Stretch} (h : st.WellFormed) (width : Nat) :
    SolidBlock (st.filled width).lines := by
  cases st with
  | prose ls =>
    obtain ⟨hne, hprose⟩ := h
    obtain ⟨line, hline⟩ := List.exists_mem_of_ne_nil ls hne
    have hblank : (Text.joinWords ls).isBlank = false := by
      rw [Text.isBlank_joinWords]
      exact List.all_eq_false.2 ⟨line, hline, by simp [(hprose line hline).not_blank]⟩
    exact ⟨Text.wrap_ne_nil hblank width, fun l hl => Text.isBlank_of_mem_wrap hl⟩
  | bullet line =>
    exact ⟨List.cons_ne_nil line [], List.forall_mem_singleton.2 (isBlank_of_isBullet h)⟩

end Stretch

/-! ## Blocks of lines set apart -/

/-- Blocks of lines one below the other, an empty line after each. -/
def setApart (blocks : List (List Text)) : List Text := blocks.flatMap (· ++ [[]])

/-- Lines that stand alone among others, in order: each is the first of them or follows an empty line,
and an empty line follows it. -/
def StandAlone : List Text → List Text → Prop
  | [], _ => True
  | l :: ls, out => ∃ before after, out = before ++ l :: [] :: after ∧
      (∀ p ∈ before.getLast?, p = []) ∧ StandAlone ls after

theorem StandAlone.append {ls out : List Text} (h : StandAlone ls out) {above : List Text}
    (habove : ∀ p ∈ above.getLast?, p = []) : StandAlone ls (above ++ out) := by
  cases ls with
  | nil => trivial
  | cons l ls =>
    obtain ⟨before, after, rfl, hbefore, hrest⟩ := h
    refine ⟨above ++ before, after, (List.append_assoc ..).symm, ?_, hrest⟩
    rw [List.getLast?_append]
    cases hlast : before.getLast? with
    | none => exact habove
    | some q =>
      rw [hlast] at hbefore
      exact hbefore

section SetApart

variable {blocks : List (List Text)}

theorem setApart_cons (b : List Text) (blocks : List (List Text)) :
    setApart (b :: blocks) = b ++ [] :: setApart blocks := by
  rw [setApart, List.flatMap_cons, List.append_assoc]
  rfl

theorem setApart_eq_nil_or (blocks : List (List Text)) :
    setApart blocks = [] ∨ (setApart blocks).getLast? = some [] := by
  induction blocks with
  | nil => exact .inl rfl
  | cons b blocks ih =>
    right
    rw [setApart_cons, List.getLast?_append_cons]
    rcases ih with h | h
    · rw [h, List.getLast?_singleton]
    · rw [List.getLast?_cons, h]
      rfl

theorem isBlank_head?_setApart (h : ∀ b ∈ blocks, SolidBlock b) :
    ∀ l ∈ (setApart blocks).head?, l.isBlank = false := by
  cases blocks with
  | nil => intro l hl; cases hl
  | cons b blocks =>
    have hb := h b List.mem_cons_self
    obtain ⟨first, b, rfl⟩ := List.exists_cons_of_ne_nil hb.ne_nil
    rw [setApart_cons]
    rintro l ⟨⟩
    exact hb.not_blank first List.mem_cons_self

/-- No two blank lines are neighbours. -/
theorem isChain_setApart (h : ∀ b ∈ blocks, SolidBlock b) :
    (setApart blocks).IsChain fun a b => a.isBlank = false ∨ b.isBlank = false := by
  induction blocks with
  | nil => exact .nil
  | cons b blocks ih =>
    obtain ⟨hb, hblocks⟩ := List.forall_mem_cons.1 h
    have hhead := isBlank_head?_setApart hblocks
    rw [setApart_cons, List.isChain_append]
    refine ⟨List.Pairwise.isChain (List.pairwise_iff_forall_sublist.2 fun hpair => ?_),
      List.isChain_cons.2 ⟨fun l hl => .inr (hhead l hl), ih hblocks⟩, fun l hl _ _ => ?_⟩
    · exact .inl (hb.not_blank _ (hpair.subset List.mem_cons_self))
    · exact .inl (hb.not_blank l (List.mem_of_getLast? hl))

end SetApart

/-! ## The document -/

/-- What detection shows: the stretches of a document, filled and set apart. -/
theorem reflow_detect (s : Man.Styles) (width : Nat) (t : Text) :
    reflow s .detect width t =
      setApart (((stretches [] (t.piecesAt '\n')).map (Stretch.filled (max width 1))).map
        Stretch.lines) := by
  have hdisplay : Stretch.display (max width 1) =
      fun st => (Stretch.filled (max width 1) st).lines ++ [[]] :=
    funext fun st => st.display_eq (max width 1)
  rw [setApart, List.map_map, List.flatMap_map, reflow, reflowDetect, hdisplay]
  rfl

/-- Filled stretches have the words of their lines. -/
theorem flatMap_words_setApart (sts : List Stretch) (width : Nat) :
    (setApart ((sts.map (Stretch.filled width)).map Stretch.lines)).flatMap Text.words =
      (sts.flatMap Stretch.lines).flatMap Text.words := by
  induction sts with
  | nil => rfl
  | cons st sts ih =>
    rw [List.map_cons, List.map_cons, setApart_cons, List.flatMap_append, List.flatMap_cons,
      Text.words_nil, List.nil_append, ih, st.flatMap_words_lines_filled, List.flatMap_cons,
      List.flatMap_append]

theorem filter_isBullet_filter_isBlank (ls : List Text) :
    (ls.filter (!·.isBlank)).filter isBullet = ls.filter isBullet := by
  rw [List.filter_filter]
  refine List.filter_congr fun line _ => ?_
  cases h : isBullet line with
  | true => simp [isBlank_of_isBullet h]
  | false => rfl

/-- The bullet lines among stretches stand alone where these are set apart. -/
theorem standAlone_setApart {sts : List Stretch} (h : ∀ st ∈ sts, st.WellFormed) (width : Nat) :
    StandAlone ((sts.flatMap Stretch.lines).filter isBullet)
      (setApart ((sts.map (Stretch.filled width)).map Stretch.lines)) := by
  induction sts with
  | nil => trivial
  | cons st sts ih =>
    obtain ⟨hst, hsts⟩ := List.forall_mem_cons.1 h
    have hrest := ih hsts
    rw [List.flatMap_cons, List.filter_append, List.map_cons, List.map_cons]
    cases st with
    | prose ls =>
      have hnone : ls.filter isBullet = [] :=
        List.filter_eq_nil_iff.2 fun line hline => by simp [(hst.2 line hline).not_bullet]
      rw [Stretch.lines, hnone, List.nil_append, setApart, List.flatMap_cons]
      refine hrest.append ?_
      rw [List.getLast?_concat]
      rintro p ⟨⟩
      rfl
    | bullet line =>
      have hone : [line].filter isBullet = [line] := List.filter_cons_of_pos hst
      rw [Stretch.lines, hone]
      exact ⟨[], _, rfl, fun p hp => (by cases hp), hrest⟩

/-- **What detection keeps.** The words of a document stay, in order. What is shown does not begin with
a blank line, has no two of them side by side, and ends with an empty line unless there is none. The
bullet lines stand in it as they are, in order, each alone between empty lines or first. -/
theorem reflow_detect_layout (s : Man.Styles) (t : Text) (width : Nat) :
    let out := reflow s .detect width t
    out.flatMap Text.words = t.words ∧
    (∀ l ∈ out.head?, l.isBlank = false) ∧
    (out.IsChain fun a b => a.isBlank = false ∨ b.isBlank = false) ∧
    (out = [] ∨ out.getLast? = some []) ∧
    StandAlone ((t.piecesAt '\n').filter isBullet) out := by
  intro out
  have hout : out = setApart (((stretches [] (t.piecesAt '\n')).map (Stretch.filled (max width 1))).map
      Stretch.lines) := reflow_detect s width t
  have hformed : ∀ st ∈ stretches [] (t.piecesAt '\n'), st.WellFormed := fun st =>
    wellFormed_of_mem_stretches (List.forall_mem_nil IsProse)
  have hlines : (stretches [] (t.piecesAt '\n')).flatMap Stretch.lines =
      (t.piecesAt '\n').filter (!·.isBlank) := flatMap_lines_stretches [] _
  generalize stretches [] (t.piecesAt '\n') = sts at hout hformed hlines
  have hsolid : ∀ b ∈ (sts.map (Stretch.filled (max width 1))).map Stretch.lines, SolidBlock b :=
    List.forall_mem_map.2 (List.forall_mem_map.2 fun st hst =>
      Stretch.solidBlock_lines_filled (hformed st hst) _)
  rw [hout]
  refine ⟨?_, isBlank_head?_setApart hsolid, isChain_setApart hsolid, setApart_eq_nil_or _, ?_⟩
  · rw [flatMap_words_setApart, hlines, Text.flatMap_words_filter_isBlank,
      Text.flatMap_words_piecesAt_newline]
  · have hstand := standAlone_setApart hformed (max width 1)
    rwa [hlines, filter_isBullet_filter_isBlank] at hstand

/-- A bullet line ends the paragraph before it, also without a blank line, and is not filled. -/
example : reflow .plain .detect 12 "Intro line\ncontinues\n  * first bullet, long\nafter".toList =
    ["Intro line", "continues", "", "  * first bullet, long", "", "after", ""].map String.toList := by
  decide

end TextPager
