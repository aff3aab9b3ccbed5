import TextPager.Reflow
import TextPager.Proofs.Text.Breaking
import TextPager.Proofs.Text.KeptEscapes

/-!
# Documents in long mode

Long mode goes through a document line by line. A line that is no wider than the page stays as it is,
and a wider one is filled anew with its words broken where they have to be, so that every line fits and
no text is lost. `LineByLine` says of lines that they come from those of a document in this way: they
fall into blocks, one for each line of the document, each with the text of its line.

A line of words fills at least one line, and none of the lines it fills is blank. A blank line has
nothing to fill lines with. It stays if it fits, and is swallowed if it is wider than the page.

**Results.**
* `width_le_of_mem_wrapLong`, `unspaced_wrapLong`: what becomes of a line fits, and has its text.
* `countP_isBlank_wrapLong`: the blank lines that become of a line are itself, if it is blank and fits.
* `reflow_long_fits`: long mode fits the page and keeps the text.
* `reflow_long_keepsLines_iff`: it keeps every line exactly if every blank line fits.
-/
namespace TextPager

/-! ## Blocks of lines -/

/-- Lines that come from others line by line: they are made of blocks, one for each of the others in
order, which hold its text up to white space and are related to it. -/
def LineByLine (R : Text → List Text → Prop) (lines out : List Text) : Prop :=
  ∃ blocks : List (List Text), out = blocks.flatten ∧
    List.Forall₂ (fun line block => Text.unspaced block.flatten = line.unspaced ∧ R line block)
      lines blocks

namespace LineByLine

variable {R : Text → List Text → Prop} {lines out : List Text}

theorem flatMap {f : Text → List Text}
    (h : ∀ line ∈ lines, Text.unspaced (f line).flatten = line.unspaced ∧ R line (f line)) :
    LineByLine R lines (lines.flatMap f) :=
  ⟨lines.map f, rfl, List.forall₂_map_right_iff.2 (List.forall₂_same.2 h)⟩

/-- The text of the blocks is that of the lines. -/
theorem unspaced_flatten (h : LineByLine R lines out) :
    Text.unspaced out.flatten = lines.flatMap Text.unspaced := by
  obtain ⟨blocks, rfl, hblocks⟩ := h
  induction hblocks with
  | nil => rfl
  | cons hblock _ ih =>
    rw [List.flatten_cons, List.flatten_append, Text.unspaced_append, hblock.1, ih,
      List.flatMap_cons]

/-- If no block is empty, blank lines have blank lines. -/
theorem countP_isBlank_le (h : LineByLine (fun _ block => block ≠ []) lines out) :
    lines.countP Text.isBlank ≤ out.countP Text.isBlank := by
  obtain ⟨blocks, rfl, hblocks⟩ := h
  induction hblocks with
  | nil => exact Nat.le_refl 0
  | @cons line block lines blocks hblock _ ih =>
    obtain ⟨htext, hne⟩ := hblock
    rw [List.countP_cons, List.flatten_cons, List.countP_append]
    by_cases hline : line.isBlank = true
    · obtain ⟨l, hl⟩ := List.exists_mem_of_ne_nil block hne
      have hblank : Text.isBlank block.flatten = true :=
        Text.unspaced_eq_nil_iff.1 (htext.trans (Text.unspaced_eq_nil_iff.2 hline))
      have hlblank : Text.isBlank l = true := List.all_eq_true.2 fun c hc =>
        List.all_eq_true.1 hblank c (List.mem_flatten.2 ⟨l, hl, hc⟩)
      have hpos : 0 < block.countP Text.isBlank := List.countP_pos_iff.2 ⟨l, hl, hlblank⟩
      rw [if_pos hline]
      omega
    · rw [if_neg hline]
      omega

end LineByLine

/-! ## What becomes of a line -/

/-- In long mode no line is wider than the page, as far as characters go. -/
theorem width_le_of_mem_wrapLong {line l : Text} (h : line.Neat) {width : Nat} (hw : 1 ≤ width)
    (hl : l ∈ wrapLong width line) : l.width ≤ width := by
  unfold wrapLong at hl
  split at hl
  · rename_i hfit
    rwa [List.mem_singleton.1 hl]
  · have hterm : ∀ w ∈ line.words, w.Terminated := fun w hw =>
      (Text.mem_words_neat h hw).terminated
    exact Nat.max_eq_left hw ▸ Text.width_le_of_mem_fill hterm hl

/-- In long mode a line keeps its text. -/
theorem unspaced_wrapLong (width : Nat) (line : Text) :
    Text.unspaced (wrapLong width line).flatten = line.unspaced := by
  unfold wrapLong
  split
  · rw [List.flatten_singleton]
  · rw [Text.wrapWith, Text.unspaced_fill, Text.flatten_words]
    simp [Text.unspaced]

/-- No blank line becomes of a line with words. -/
theorem isBlank_of_mem_wrapLong {line l : Text} (h : line.isBlank = false) {width : Nat}
    (hl : l ∈ wrapLong width line) : l.isBlank = false := by
  unfold wrapLong at hl
  split at hl
  · rwa [List.mem_singleton.1 hl]
  · exact Text.isBlank_of_mem_fill (fun _ hw => Text.mem_words hw) hl

/-- A blank line stays if it fits, and is swallowed if it does not. -/
theorem wrapLong_of_isBlank {line : Text} (h : line.isBlank = true) (width : Nat) :
    wrapLong width line = if line.length ≤ width then [line] else [] := by
  have hesc : esc ∉ line := fun he =>
    absurd (List.all_eq_true.1 h esc he) (by simp [Text.isSpace_esc])
  rw [wrapLong, Text.width_of_not_mem hesc, Text.wrapWith, Text.words_of_isBlank h]
  rfl

/-- The blank lines that become of a line are the line itself, if it is blank and fits. -/
theorem countP_isBlank_wrapLong (width : Nat) (line : Text) :
    (wrapLong width line).countP Text.isBlank =
      if (line.isBlank && line.length ≤ width) = true then 1 else 0 := by
  cases hline : line.isBlank with
  | true =>
    rw [wrapLong_of_isBlank hline]
    by_cases hfit : line.length ≤ width <;> simp [hfit, hline]
  | false =>
    have hnone : (wrapLong width line).countP Text.isBlank = 0 :=
      List.countP_eq_zero.2 fun l hl => by simp [isBlank_of_mem_wrapLong hline hl]
    simp [hnone]

theorem countP_isBlank_flatMap_wrapLong (width : Nat) (lines : List Text) :
    (lines.flatMap (wrapLong width)).countP Text.isBlank =
      lines.countP fun line => line.isBlank && line.length ≤ width := by
  induction lines with
  | nil => rfl
  | cons line lines ih =>
    rw [List.flatMap_cons, List.countP_append, countP_isBlank_wrapLong, ih, List.countP_cons,
      Nat.add_comm]

/-! ## The document -/

theorem reflow_long (s : Man.Styles) (width : Nat) (t : Text) :
    reflow s .long width t = (t.piecesAt '\n').flatMap (wrapLong (max width 1)) := rfl

/-- **Long mode fits the page and keeps the text.** Let the escape sequences of a document be complete
and hold no white space. In long mode no line has more columns than the page; every line of the document
has a block of its own, which is the line itself if it fits; and but for white space the lines spell the
document. -/
theorem reflow_long_fits (s : Man.Styles) {t : Text} (hend : t.Terminated)
    (hspace : ∀ e ∈ t.escapes, ∀ c ∈ e, isSpace c = false) (width : Nat) :
    (∀ l ∈ reflow s .long width t, l.width ≤ max width 1) ∧
      LineByLine (fun line block => line.width ≤ max width 1 → block = [line]) (t.piecesAt '\n')
        (reflow s .long width t) ∧
      Text.unspaced (reflow s .long width t).flatten = t.unspaced := by
  have hneat : t.Neat := (Text.neat_iff t).2 ⟨hend, hspace⟩
  have hnewline : ∀ c, (c == '\n') = true → isSpace c = true := fun c hc => by
    rw [beq_iff_eq.1 hc]
    decide
  have hblocks : LineByLine (fun line block => line.width ≤ max width 1 → block = [line])
      (t.piecesAt '\n') (reflow s .long width t) := by
    refine .flatMap fun line _ => ⟨unspaced_wrapLong _ line, fun hfit => ?_⟩
    rw [wrapLong, if_pos hfit]
  refine ⟨fun l hl => ?_, hblocks, ?_⟩
  · rw [reflow_long] at hl
    obtain ⟨line, hline, hl⟩ := List.mem_flatMap.1 hl
    exact width_le_of_mem_wrapLong (Text.mem_pieces_neat hnewline hneat line hline)
      (Nat.le_max_right width 1) hl
  · rw [hblocks.unspaced_flatten]
    exact Text.flatMap_unspaced_pieces hnewline t

/-- A lead wider than the page, a word with sequences that is broken, and a line that fits. -/
theorem reflow_long_fits_broken :
    Text.Terminated "\tab \x1b[1mbacon\x1b[m!\n eg".toList ∧
      (∀ e ∈ Text.escapes "\tab \x1b[1mbacon\x1b[m!\n eg".toList, ∀ c ∈ e, isSpace c = false) ∧
      (∀ l ∈ reflow .ansi .long 3 "\tab \x1b[1mbacon\x1b[m!\n eg".toList, l.width ≤ 3) ∧
      LineByLine (fun line block => line.width ≤ 3 → block = [line])
        ["\tab \x1b[1mbacon\x1b[m!".toList, " eg".toList]
        ["ab".toList, "\x1b[1mbac".toList, "on\x1b[m!".toList, " eg".toList] ∧
      Text.unspaced "ab\x1b[1mbacon\x1b[m! eg".toList =
        Text.unspaced "\tab \x1b[1mbacon\x1b[m!\n eg".toList := by
  have hneat : Text.Neat "\tab \x1b[1mbacon\x1b[m!\n eg".toList := by decide
  obtain ⟨hend, hspace⟩ := (Text.neat_iff _).1 hneat
  exact ⟨hend, hspace, reflow_long_fits .ansi hend hspace 3⟩

/-- **When long mode keeps the line breaks.** Every line of the document has at least one line in long
mode, in order, exactly if no blank line is wider than the page. -/
theorem reflow_long_keepsLines_iff (s : Man.Styles) (t : Text) (width : Nat) :
    LineByLine (fun _ block => block ≠ []) (t.piecesAt '\n') (reflow s .long width t) ↔
      ∀ line ∈ t.piecesAt '\n', line.isBlank = true → line.length ≤ max width 1 := by
  constructor
  · intro h line hline hblank
    have hle := h.countP_isBlank_le
    rw [reflow_long, countP_isBlank_flatMap_wrapLong] at hle
    have hfilter : (t.piecesAt '\n').countP (fun line => line.isBlank && line.length ≤ max width 1) =
        ((t.piecesAt '\n').filter Text.isBlank).countP (fun line => line.length ≤ max width 1) := by
      rw [List.countP_filter]
      simp only [Bool.and_comm]
    rw [hfilter, List.countP_eq_length_filter (p := Text.isBlank)] at hle
    have hall := List.countP_eq_length.1 (Nat.le_antisymm List.countP_le_length hle)
    exact of_decide_eq_true (hall line (List.mem_filter.2 ⟨hline, hblank⟩))
  · intro h
    refine .flatMap fun line hline => ⟨unspaced_wrapLong _ line, fun hnil => ?_⟩
    have htext := unspaced_wrapLong (max width 1) line
    rw [hnil] at htext
    have hblank : line.isBlank = true := Text.unspaced_eq_nil_iff.1 htext.symm
    rw [wrapLong_of_isBlank hblank, if_pos (h line hline hblank)] at hnil
    cases hnil

/-- A line of four spaces between two paragraphs, on a page of three columns: no line is left of it. -/
theorem reflow_long_swallowed :
    ¬LineByLine (fun _ block => block ≠ []) (Text.piecesAt '\n' "a\n    \nb".toList)
      (reflow .ansi .long 3 "a\n    \nb".toList) := by
  intro h
  have hle := h.countP_isBlank_le
  revert hle
  decide

end TextPager
