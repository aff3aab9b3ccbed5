import Mathlib.Data.List.DropRight
import TextPager.Reflow
import TextPager.Proofs.Text.KeptEscapes

/-!
# Cutting to columns

A text cut to columns keeps its escape sequences and the first of its visible characters. It is read
back as just that, whatever the sequences are: only the last one of a text may be incomplete, and
the cut leaves it last. So how wide a cut text is, and what a second cut does to it, is told by the
segments that are kept.

Without wrapping, a document is cut line by line, and the white space at the end of a line is dropped
after the cut. That may take a sequence apart which ends in white space. But a line never gets wider
by losing its end, so there is nothing left to cut a second time.

**Results.**
* `width_truncate`, `truncate_truncate`: how wide a cut text is, and what a second cut does.
* `truncate_of_width_le`: a text that fits stays as it is.
* `width_le_width_append`: a text is no wider without its end.
* `truncate_exact_reflow_noWrap_stable`: cutting is exact, and a document that was cut stays as it is.
-/
namespace TextPager

namespace Text

/-! ## Segments that are kept -/

theorem countP_keepVisible (n : Nat) (gs : List Segment) :
    (keepVisible n gs).countP Segment.isChar = min (gs.countP Segment.isChar) n := by
  fun_induction keepVisible n gs with
  | case1 n => exact (Nat.zero_min n).symm
  | case2 n e gs ih => simpa [Segment.isChar] using ih
  | case3 c gs ih => rw [ih, Nat.min_zero, Nat.min_zero]
  | case4 n c gs ih =>
    rw [List.countP_cons_of_pos rfl, List.countP_cons_of_pos rfl, ih, Nat.add_min_add_right]

theorem keepVisible_keepVisible (a b : Nat) (gs : List Segment) :
    keepVisible b (keepVisible a gs) = keepVisible (min a b) gs := by
  fun_induction keepVisible a gs generalizing b with
  | case1 a => rfl
  | case2 a e gs ih => rw [keepVisible, keepVisible, ih]
  | case3 c gs ih => rw [ih, Nat.zero_min, keepVisible]
  | case4 a c gs ih =>
    cases b with
    | zero => rw [keepVisible, ih, Nat.min_zero, Nat.min_zero, keepVisible]
    | succ b => rw [keepVisible, ih, Nat.succ_min_succ, keepVisible]

theorem keepVisible_of_countP_le {n : Nat} {gs : List Segment}
    (h : gs.countP Segment.isChar ≤ n) : keepVisible n gs = gs := by
  fun_induction keepVisible n gs with
  | case1 n => rfl
  | case2 n e gs ih => rw [ih (by simpa [Segment.isChar] using h)]
  | case3 c gs ih =>
    rw [List.countP_cons_of_pos rfl] at h
    exact absurd h (Nat.not_succ_le_zero _)
  | case4 n c gs ih =>
    rw [List.countP_cons_of_pos rfl] at h
    rw [ih (Nat.le_of_succ_le_succ h)]

/-! ## Texts that are cut -/

/-- A text is cut to exactly as many columns if it is wider. -/
theorem width_truncate (t : Text) (n : Nat) : (t.truncate n).width = min t.width n := by
  rw [width, segments_truncate, countP_keepVisible, width]

/-- The narrower of two cuts decides. -/
theorem truncate_truncate (t : Text) (a b : Nat) :
    (t.truncate a).truncate b = t.truncate (min a b) := by
  rw [truncate, segments_truncate, keepVisible_keepVisible, truncate]

/-- A text that fits stays as it is. -/
theorem truncate_of_width_le {t : Text} {n : Nat} (h : t.width ≤ n) : t.truncate n = t := by
  rw [truncate, keepVisible_of_countP_le h, ofSegments_segments]

/-! ## Texts without their end -/

theorem countP_segmentsFrom_le_append (s : Scan) (a b : Text) :
    (segmentsFrom s a).2.countP Segment.isChar ≤
      (segmentsFrom s (a ++ b)).2.countP Segment.isChar := by
  induction a generalizing s with
  | nil => exact Nat.zero_le _
  | cons c a ih =>
    have hle := ih (s.next c)
    simp only [List.cons_append, segmentsFrom]
    split
    · split
      · rw [List.countP_cons_of_pos rfl, List.countP_cons_of_pos rfl]
        exact Nat.succ_le_succ hle
      · simpa [Segment.isChar] using hle
    · exact hle

/-- A text is no wider without its end, also when the cut takes a sequence apart. -/
theorem width_le_width_append (a b : Text) : a.width ≤ (a ++ b).width :=
  countP_segmentsFrom_le_append .ground a b

/-- What is dropped at the end of a text is white space. -/
theorem exists_trimEnd_append (t : Text) :
    ∃ blanks : Text, blanks.isBlank = true ∧ t = t.trimEnd ++ blanks := by
  obtain ⟨blanks, ht, hspace⟩ := exists_append_of_dropEndWhile isSpace t
  exact ⟨blanks, List.all_eq_true.2 hspace, ht⟩

theorem width_trimEnd_le (t : Text) : t.trimEnd.width ≤ t.width := by
  obtain ⟨blanks, -, ht⟩ := t.exists_trimEnd_append
  calc t.trimEnd.width ≤ (t.trimEnd ++ blanks).width := width_le_width_append _ _
    _ = t.width := by rw [← ht]

theorem trimEnd_trimEnd (t : Text) : t.trimEnd.trimEnd = t.trimEnd :=
  List.rdropWhile_idempotent isSpace t

theorem width_trimEnd_truncate_le (t : Text) (n : Nat) : (t.truncate n).trimEnd.width ≤ n :=
  Nat.le_trans (width_trimEnd_le _) (width_truncate t n ▸ Nat.min_le_right _ _)

/-- A text that was cut and lost the white space at its end stays as it is. -/
theorem trimEnd_truncate_stable (t : Text) (n : Nat) :
    ((t.truncate n).trimEnd.truncate n).trimEnd = (t.truncate n).trimEnd := by
  rw [truncate_of_width_le (t.width_trimEnd_truncate_le n), trimEnd_trimEnd]

end Text

/-! ## Documents without wrapping -/

theorem reflow_noWrap (s : Man.Styles) (width : Nat) (t : Text) :
    reflow s .noWrap width t =
      (t.piecesAt '\n').map fun line => (line.truncate (max width 1)).trimEnd := rfl

theorem newline_not_mem_reflow_noWrap {s : Man.Styles} {width : Nat} {t l : Text}
    (hl : l ∈ reflow s .noWrap width t) : '\n' ∉ l := by
  intro hn
  obtain ⟨line, hline, rfl⟩ := List.mem_map.1 hl
  have hmem : '\n' ∈ line := Text.mem_truncate (Text.mem_of_mem_dropEndWhile hn)
  simpa using Text.not_mem_of_mem_pieces hline hmem

/-- A document that was cut stays as it is. -/
theorem reflow_noWrap_stable (s : Man.Styles) (width : Nat) (t : Text) :
    reflow s .noWrap width (Text.joinLines (reflow s .noWrap width t)) =
      reflow s .noWrap width t := by
  have hne : reflow s .noWrap width t ≠ [] := fun hnil =>
    Text.pieces_ne_nil (· == '\n') t (List.map_eq_nil_iff.1 hnil)
  rw [reflow_noWrap s width (Text.joinLines _),
    Text.piecesAt_joinLines hne fun l => newline_not_mem_reflow_noWrap, reflow_noWrap, List.map_map]
  exact List.map_congr_left fun line _ => line.trimEnd_truncate_stable (max width 1)

/-- **Cutting is exact, and cut documents stay as they are.** A text cut to columns has as many of them,
or all it had if they are fewer; it keeps its escape sequences in order, complete or not; and of two
cuts the narrower decides. So without wrapping a document has one line for each of its own, which is
that line cut to the page but for white space at its end, and is no wider than the page; and these
lines, joined by newlines, are shown again as they are. -/
theorem truncate_exact_reflow_noWrap_stable :
    (∀ (t : Text) (a b : Nat),
      (t.truncate a).width = min t.width a ∧ (t.truncate a).escapes = t.escapes ∧
        (t.truncate a).truncate b = t.truncate (min a b)) ∧
    ∀ (s : Man.Styles) (t : Text) (width : Nat),
      let out := reflow s .noWrap width t
      List.Forall₂ (fun line l => l.width ≤ max width 1 ∧
        ∃ blanks : Text, blanks.isBlank = true ∧ line.truncate (max width 1) = l ++ blanks)
        (t.piecesAt '\n') out ∧
      reflow s .noWrap width (Text.joinLines out) = out := by
  refine ⟨fun t a b => ⟨t.width_truncate a, t.escapes_truncate a, t.truncate_truncate a b⟩,
    fun s t width => ⟨?_, reflow_noWrap_stable s width t⟩⟩
  rw [reflow_noWrap, List.forall₂_map_right_iff, List.forall₂_same]
  exact fun line _ => ⟨line.width_trimEnd_truncate_le _, Text.exists_trimEnd_append _⟩

/-- The white space at the end of a cut line may belong to a sequence; what is left of that is kept. -/
example : reflow .plain .noWrap 2 "ab\x1b( cd".toList = ["ab\x1b(".toList] := by decide

end TextPager
