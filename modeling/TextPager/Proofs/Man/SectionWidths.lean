import TextPager.Proofs.Man.RunningText
import TextPager.Proofs.Man.StyledLayout
import TextPager.Proofs.Text.LineWidths

/-!
# When sections stay on the page

The body of a section is filled into the columns right of its indent, one at least, and stands
behind that indent whether or not the page has a column left for it. With more columns right of the
margin than the indent it has, and then every line is within the page but for words that are too
wide. With fewer the lines are filled into one column that is not there, and a word of one column
overhangs as well.

**Results.**
* `Placed.lines_of_headed`: a section is its heading, its body and a blank line.
* `Placed.forall_bodyFits_iff`: when the body of a section is within the page.
* `render_sections_iff`: when all bodies on a page of sections are.
* `render_sections_not_fit`: four columns are not enough for a word of one.
-/
namespace TextPager.Man

namespace Token

/-- A shift, or a section of running text without escapes. -/
def Headed : Token → Prop
  | shiftIn _ | shiftOut _ => True
  | heading _ _ cs => ∀ t ∈ cs, t.Running (· ≠ esc)
  | _ => False

instance : DecidablePred Headed
  | shiftIn _ | shiftOut _ => inferInstanceAs (Decidable True)
  | heading _ _ cs => inferInstanceAs (Decidable (∀ t ∈ cs, t.Running (· ≠ esc)))
  | text _ | unknown _ | title _ | paragraph _ | indented .. | tagged .. | verbatim _ | synopsis ..
  | option .. | link .. | font .. => inferInstanceAs (Decidable False)

/-- The line at the head of a section. -/
def headLine (s : Styles) : Token → List Text
  | heading rank h _ => [Text.spaces rank.lead ++ s.apply .bold h]
  | _ => []

/-- The running text the body of a section is filled from. -/
def sectionText (s : Styles) : Token → Text
  | heading _ _ cs => prose s cs
  | _ => []

theorem sectionText_neat {s : Styles} (hs : s.Tidy) {t : Token} (h : t.Headed) :
    (t.sectionText s).Neat := by
  cases t with
  | heading rank hd cs => exact prose_neat hs h
  | _ => exact Text.neat_nil

/-- A section is set as its heading and its filled body, a shift as neither. -/
theorem layout_of_headed {t : Token} (h : t.Headed) (s : Styles) (width indent : Nat) :
    t.layout s width indent = t.headLine s ++
      indentLines sectionIndent ((t.sectionText s).wrap (max (width - sectionIndent) 1)) := by
  cases t with
  | shiftIn step => rw [layout_shiftIn]; rfl
  | shiftOut step => rw [layout_shiftOut]; rfl
  | heading rank hd cs =>
    have hbody := sectionLines_of_running h s (max (width - sectionIndent) 1) []
    rw [List.map_nil, List.nil_append] at hbody
    rw [Token.layout, hbody]
    rfl
  | _ => cases h

theorem title?_of_headed {t : Token} (h : t.Headed) : t.title? = none := by
  cases t <;> first | rfl | cases h

end Token

namespace Placed

/-- The lines of a section's heading on the page. A heading that holds newlines has several. -/
def headLines (s : Styles) (width : Nat) (p : Placed) : List Text :=
  marginLines (p.edge width) (p.token.headLine s)

/-- The lines of a section's body on the page. -/
def bodyLines (s : Styles) (width : Nat) (p : Placed) : List Text :=
  ((p.token.sectionText s).wrap (max (width - p.edge width - sectionIndent) 1)).map
    (Text.spaces (p.edge width + sectionIndent) ++ ·)

/-- A line of a section's body is within the page, or it holds a single word that is wider than the
columns left, or than one column if none is. -/
def BodyFits (s : Styles) (width : Nat) (p : Placed) (l : Text) : Prop :=
  l.width ≤ width ∨ ∃ word ∈ (p.token.sectionText s).words,
    l = Text.spaces (p.edge width + sectionIndent) ++ word ∧
      max 1 (width - (p.edge width + sectionIndent)) < word.width

instance (s : Styles) (width : Nat) (p : Placed) : DecidablePred (p.BodyFits s width) := fun l =>
  inferInstanceAs (Decidable (l.width ≤ width ∨ ∃ word ∈ (p.token.sectionText s).words,
    l = Text.spaces (p.edge width + sectionIndent) ++ word ∧
      max 1 (width - (p.edge width + sectionIndent)) < word.width))

/-- The columns right of the margin are enough for a section. More columns than the indent always
are. With fewer the body is filled into a single column, and each of its lines has to be a word
wider than that; with as many it may also be a line that shows nothing. -/
def Suffices (s : Styles) (width : Nat) (p : Placed) : Prop :=
  sectionIndent < width - p.edge width ∨ ∀ l ∈ (p.token.sectionText s).wrap 1,
    (l ∈ (p.token.sectionText s).words ∧ 1 < l.width) ∨
      (l.width = 0 ∧ width - p.edge width = sectionIndent)

instance (s : Styles) (width : Nat) : DecidablePred (Suffices s width) := fun p =>
  inferInstanceAs (Decidable (sectionIndent < width - p.edge width ∨
    ∀ l ∈ (p.token.sectionText s).wrap 1,
      (l ∈ (p.token.sectionText s).words ∧ 1 < l.width) ∨
        (l.width = 0 ∧ width - p.edge width = sectionIndent)))

variable {s : Styles} {width : Nat} {p : Placed}

theorem bodyLines_eq (hs : s.Tidy) (h : p.token.Headed) (width : Nat) :
    marginLines (p.edge width) (indentLines sectionIndent
        ((p.token.sectionText s).wrap (max (width - p.edge width - sectionIndent) 1))) =
      p.bodyLines s width := by
  have hnewline : ∀ l ∈ indentLines sectionIndent
      ((p.token.sectionText s).wrap (max (width - p.edge width - sectionIndent) 1)), '\n' ∉ l := by
    refine List.forall_mem_map.2 fun b hb => ?_
    exact ((Text.flat_spaces _).append
      (Text.flat_wrap (Token.sectionText_neat hs h) _ b hb)).newline
  rw [marginLines_eq hnewline, indentLines, List.map_map, bodyLines]
  refine List.map_congr_left fun b hb => ?_
  have hblank : (Text.spaces sectionIndent ++ b).isBlank = false := by
    rw [Text.isBlank_append, Text.isBlank_of_mem_wrap hb, Bool.and_false]
  rw [Function.comp_apply, putMargin, hblank, Text.spaces_add_append]
  rfl

/-- A section is its heading, its body and a blank line; a shift is none of these. -/
theorem lines_of_headed (hs : s.Tidy) (h : p.token.Headed) (width : Nat) :
    p.lines s width = p.headLines s width ++ p.bodyLines s width ++ p.gap s width := by
  have happend : ∀ a b : List Text, marginLines (p.edge width) (a ++ b) =
      marginLines (p.edge width) a ++ marginLines (p.edge width) b := fun a b => by
    rw [marginLines, List.flatMap_append, List.map_append]
    rfl
  rw [lines, gap, inner, Token.layout_of_headed h, happend, bodyLines_eq hs h]
  rfl

/-- When the body of a section is within the page. -/
theorem forall_bodyFits_iff (hs : s.Tidy) (hw : 0 < width) (h : p.token.Headed) :
    (∀ l ∈ p.bodyLines s width, p.BodyFits s width l) ↔ p.Suffices s width := by
  have hcolumn : 0 < width - p.edge width := p.columns_pos hw
  have hfits : ∀ b : Text, p.BodyFits s width (Text.spaces (p.edge width + sectionIndent) ++ b) ↔
      p.edge width + sectionIndent + b.width ≤ width ∨
        (b ∈ (p.token.sectionText s).words ∧
          max 1 (width - (p.edge width + sectionIndent)) < b.width) := by
    intro b
    simp [BodyFits, Text.width_spaces_append]
  rw [bodyLines, List.forall_mem_map, Suffices]
  simp only [hfits]
  rcases Nat.lt_or_ge sectionIndent (width - p.edge width) with hmany | hfew
  · refine iff_of_true (fun b hb => ?_) (.inl hmany)
    have hwidth := Text.width_le_or_mem_of_mem_wrap (Token.sectionText_neat hs h) hb
    exact hwidth.imp (fun hle => by omega) fun ⟨hword, hwide⟩ => ⟨hword, by omega⟩
  · -- The body is filled into a single column, which is not there.
    have hone : max (width - p.edge width - sectionIndent) 1 = 1 := by omega
    have hnone : max 1 (width - (p.edge width + sectionIndent)) = 1 := by omega
    rw [hone, hnone, or_iff_right (by omega)]
    refine forall₂_congr fun b hb => ?_
    rw [or_comm]
    refine or_congr_right ?_
    omega

end Placed

/-! ## Pages -/

/-- **When sections stay on the page.** A page of shifts and sections is, section by section, a
heading, a body and a blank line. The lines of all bodies are within the page, or hold a single word
that is wider than the columns left, exactly if the columns right of each margin suffice. -/
theorem render_sections_iff {s : Styles} (hs : s = .plain ∨ s = .ansi) {width : Nat}
    (hw : 1 ≤ width) {ts : List Token} (hts : ∀ t ∈ ts, t.Headed) :
    render s width ts = Text.ended ((placed 0 defaultIndent ts).flatMap fun p =>
        p.headLines s width ++ p.bodyLines s width ++ p.gap s width) ∧
      ((∀ p ∈ placed 0 defaultIndent ts, ∀ l ∈ p.bodyLines s width, p.BodyFits s width l) ↔
        ∀ p ∈ placed 0 defaultIndent ts, p.Suffices s width) := by
  have htidy := tidy_of_eq hs
  have hheaded : ∀ p ∈ placed 0 defaultIndent ts, p.token.Headed := fun p hp =>
    hts _ (mem_placed hp)
  constructor
  · rw [render_of_no_title (fun t ht => Token.title?_of_headed (hts t ht)) s hw]
    exact congrArg Text.ended (List.flatMap_congr fun p hp =>
      Placed.lines_of_headed htidy (hheaded p hp) width)
  · exact forall₂_congr fun p hp => Placed.forall_bodyFits_iff htidy hw (hheaded p hp)

/-- A subheading right of a margin that leaves it five columns, and words that are too wide for
them. -/
def narrowPage : List Token :=
  [.shiftIn 3, .heading .minor "h".toList [.text "a b".toList, .unknown "c\nwide".toList],
    .shiftOut 9, .heading .major "h".toList [.option "o".toList none]]

theorem render_sections_narrowPage :
    (Styles.plain = .plain ∨ Styles.plain = .ansi) ∧ 1 ≤ 8 ∧ (∀ t ∈ narrowPage, t.Headed) ∧
      render .plain 8 narrowPage =
        "     h\n       a\n       b\n       c\n       wide\n\nh\n    [o]\n\n".toList ∧
      ∀ p ∈ placed 0 defaultIndent narrowPage, ∀ l ∈ p.bodyLines .plain 8,
        p.BodyFits .plain 8 l := by
  have hts : ∀ t ∈ narrowPage, t.Headed := by decide +kernel
  have hpage := render_sections_iff (.inl rfl) (by decide : 1 ≤ 8) hts
  exact ⟨.inl rfl, by decide, hts, by decide +kernel, hpage.2.2 (by decide +kernel)⟩

/-- Four columns are not enough for a word of one. -/
theorem render_sections_not_fit :
    (∀ t ∈ tokens ".SH A\na\n".toList, t.Headed) ∧
      render .plain 4 (tokens ".SH A\na\n".toList) = "A\n    a\n\n".toList ∧
      ¬∀ p ∈ placed 0 defaultIndent (tokens ".SH A\na\n".toList), ∀ l ∈ p.bodyLines .plain 4,
        p.BodyFits .plain 4 l := by
  decide +kernel

end TextPager.Man
