import TextPager.Proofs.Page.PrintedPages

/-!
# Hard wrapping is undone

What detection shows of a document can be taken for a document again: its paragraphs are hard-wrapped
now, and set apart by empty lines. Detection finds the same stretches in it. A filled line of prose is
not blank, and it does not begin with a star of its own, so it is not taken for a bullet line either;
and the empty line after each stretch ends it. Where a paragraph does not begin with white space, its
lines joined again are its words with single spaces between them, whatever the width was. So the
document is shown as it would have been.

**Results.**
* `stretches_setApart`: stretches that are set apart are found again.
* `wellFormed_filled`, `filled_filled`: a filled paragraph is one, and is filled anew as it was.
* `reflow_detect_again`: detection does not depend on where the lines of a document were broken.
-/
namespace TextPager

/-! ## Stretches are found again -/

theorem stretches_append_prose {ps : List Text} (h : ∀ line ∈ ps, IsProse line)
    (before ls : List Text) : stretches before (ps ++ ls) = stretches (before ++ ps) ls := by
  induction ps generalizing before with
  | nil => rw [List.nil_append, List.append_nil]
  | cons line ps ih =>
    obtain ⟨hline, hps⟩ := List.forall_mem_cons.1 h
    rw [List.cons_append, stretches_cons_prose before _ hline, ih hps, List.append_assoc,
      List.singleton_append]

/-- Stretches that are set apart by empty lines are found again. -/
theorem stretches_setApart {sts : List Stretch} (h : ∀ st ∈ sts, st.WellFormed) :
    stretches [] (setApart (sts.map Stretch.lines)) = sts := by
  have hempty : ∀ before ls, stretches before ([] :: ls) = Stretch.ofProse before ++ stretches [] ls :=
    fun before ls => stretches_cons_blank before ls rfl
  induction sts with
  | nil => rfl
  | cons st sts ih =>
    obtain ⟨hst, hsts⟩ := List.forall_mem_cons.1 h
    rw [List.map_cons, setApart_cons]
    cases st with
    | prose ls =>
      rw [Stretch.lines, stretches_append_prose hst.2, List.nil_append, hempty, ih hsts,
        Stretch.ofProse_of_ne_nil hst.1, List.singleton_append]
    | bullet line =>
      rw [Stretch.lines, List.singleton_append, stretches_cons_bullet [] _ hst, hempty, ih hsts]
      rfl

/-! ## Filling anew -/

/-- A bullet line has a star for a word. -/
theorem star_mem_words_of_isBullet {line : Text} (h : isBullet line = true) : ['*'] ∈ line.words := by
  obtain ⟨lead, c, rest, rfl, hlead, hc⟩ := (isBullet_iff line).1 h
  have hstar : Text.words ('*' :: c :: rest) = Text.words ['*'] ++ Text.words rest :=
    Text.words_append_cons ['*'] rest hc
  rw [Text.words_blank_append (List.all_eq_true.2 hlead), hstar]
  exact List.mem_append_left _ (by decide)

namespace Stretch

/-- The paragraph begins with white space. -/
def isIndented : Stretch → Bool
  | prose ls => (Text.joinWords ls).head?.any isSpace
  | bullet _ => false

/-- The lines of a filled paragraph are prose if no star is a word of it. -/
theorem wellFormed_filled {st : Stretch} (h : st.WellFormed)
    (hstar : ∀ line ∈ st.lines, IsProse line → ['*'] ∉ line.words) (width : Nat) :
    (st.filled width).WellFormed := by
  have hsolid := solidBlock_lines_filled h width
  cases st with
  | prose ls =>
    refine ⟨hsolid.ne_nil, fun l hl => ⟨hsolid.not_blank l hl, ?_⟩⟩
    by_contra hbullet
    have hword : ['*'] ∈ (filled width (.prose ls)).lines.flatMap Text.words :=
      List.mem_flatMap.2 ⟨l, hl, star_mem_words_of_isBullet (by simpa using hbullet)⟩
    rw [flatMap_words_lines_filled] at hword
    obtain ⟨line, hline, hword⟩ := List.mem_flatMap.1 hword
    exact hstar line hline (h.2 line hline) hword
  | bullet line => exact h

/-- A paragraph that does not begin with white space is filled anew as it was. -/
theorem filled_filled {st : Stretch} (h : st.isIndented = false) (m n : Nat) :
    (st.filled m).filled n = st.filled n := by
  cases st with
  | prose ls =>
    have hlead : (Text.joinWords ls).leadColumns = 0 := Text.leadColumns_eq_zero fun c hc => by
      rw [isIndented, Option.mem_def.1 hc] at h
      exact h
    exact congrArg prose (Text.wrap_joinWords_wrap hlead m n)
  | bullet line => rfl

end Stretch

/-! ## The document -/

theorem newline_not_mem_reflow_detect {s : Man.Styles} {width : Nat} {t l : Text}
    (hl : l ∈ reflow s .detect width t) : '\n' ∉ l := by
  have hpieces : ∀ line ∈ t.piecesAt '\n', Man.madeOf (· ≠ '\n') line := fun line hline c hc => by
    simpa using Text.not_mem_of_mem_pieces hline hc
  exact fun hn => madeOf_of_mem_reflowDetect (by decide) hpieces hl '\n' hn rfl

/-- Lines joined by newlines are grouped as they are. -/
theorem stretches_piecesAt_joinLines {ls : List Text} (h : ∀ l ∈ ls, '\n' ∉ l) :
    stretches [] ((Text.joinLines ls).piecesAt '\n') = stretches [] ls := by
  by_cases hne : ls = []
  · rw [hne]
    rfl
  · rw [Text.piecesAt_joinLines hne h]

/-- **Hard wrapping is undone.** Let no line of a document's prose have a star for a word, and let no
paragraph begin with white space. What detection shows of it at some width, its lines joined by newlines,
is shown at any width as the document is. -/
theorem reflow_detect_again (s : Man.Styles) {t : Text}
    (hstar : ∀ line ∈ t.piecesAt '\n', line.isBlank = false → isBullet line = false →
      ['*'] ∉ line.words)
    (hlead : ∀ st ∈ stretches [] (t.piecesAt '\n'), st.isIndented = false) (m n : Nat) :
    reflow s .detect n (Text.joinLines (reflow s .detect m t)) = reflow s .detect n t := by
  have hformed : ∀ st ∈ (stretches [] (t.piecesAt '\n')).map (Stretch.filled (max m 1)),
      st.WellFormed := by
    refine List.forall_mem_map.2 fun st hst => ?_
    have hst' := wellFormed_of_mem_stretches (List.forall_mem_nil IsProse) hst
    exact Stretch.wellFormed_filled hst' (fun line hline hprose =>
      hstar line (mem_of_mem_stretches hst hline) hprose.not_blank hprose.not_bullet) _
  have hagain : stretches [] ((Text.joinLines (reflow s .detect m t)).piecesAt '\n') =
      (stretches [] (t.piecesAt '\n')).map (Stretch.filled (max m 1)) := by
    rw [stretches_piecesAt_joinLines fun l => newline_not_mem_reflow_detect, reflow_detect,
      stretches_setApart hformed]
  have hfilled : ((stretches [] (t.piecesAt '\n')).map (Stretch.filled (max m 1))).map
      (Stretch.filled (max n 1)) = (stretches [] (t.piecesAt '\n')).map (Stretch.filled (max n 1)) := by
    rw [List.map_map]
    exact List.map_congr_left fun st hst => Stretch.filled_filled (hlead st hst) _ _
  rw [reflow_detect s n (Text.joinLines _), hagain, hfilled, reflow_detect]

/-- A paragraph with a word wider than a line and with white space to collapse, a bullet line right
below it, and another paragraph right below that. -/
def bulletBetweenProse : Text := "spam  scrambled\teggs\nham \n  * a  bullet\nbaked\n\n\nbeans".toList

/-- Shown at five columns and then at twelve, it is as at twelve. -/
theorem reflow_detect_again_bulletBetweenProse :
    (∀ line ∈ bulletBetweenProse.piecesAt '\n', line.isBlank = false → isBullet line = false →
      ['*'] ∉ line.words) ∧
    (∀ st ∈ stretches [] (bulletBetweenProse.piecesAt '\n'), st.isIndented = false) ∧
    reflow .ansi .detect 12 (Text.joinLines (["spam", "scrambled", "eggs", "ham", "", "  * a  bullet",
      "", "baked", "", "beans", ""].map String.toList)) =
        ["spam", "scrambled", "eggs ham", "", "  * a  bullet", "", "baked", "", "beans", ""].map
          String.toList := by
  have hstar : ∀ line ∈ bulletBetweenProse.piecesAt '\n', line.isBlank = false →
      isBullet line = false → ['*'] ∉ line.words := by decide
  have hlead : ∀ st ∈ stretches [] (bulletBetweenProse.piecesAt '\n'), st.isIndented = false := by
    decide
  have hfive : reflow .ansi .detect 5 bulletBetweenProse = ["spam", "scrambled", "eggs", "ham", "",
      "  * a  bullet", "", "baked", "", "beans", ""].map String.toList := by decide
  have htwelve : reflow .ansi .detect 12 bulletBetweenProse = ["spam", "scrambled", "eggs ham", "",
      "  * a  bullet", "", "baked", "", "beans", ""].map String.toList := by decide
  refine ⟨hstar, hlead, ?_⟩
  rw [← hfive, ← htwelve]
  exact reflow_detect_again .ansi hstar hlead 5 12

end TextPager
