import TextPager.Proofs.Man.MachineLayout
import TextPager.Proofs.Text.LineWidths

/-!
# Paragraphs stay on the page

A margin is held back so that a column is left right of it, and an indent so that a column is left
right of that. So the body of a paragraph always has columns to be filled into, and a line of it
ends at the edge of the page at the latest, unless it holds a word that is wider than those columns
and nothing after it. The only other lines of a paragraph are its tags. A tag shares a line with the
body only if it is narrower than the indent, and is then filled up to it.

**Results.**
* `mem_tagLines`: a line of a paragraph is a tag, an indented line of the body, or both.
* `Placed.width_le_or_overhangs`: a line of a paragraph is within the page, or it overhangs with a
  tag or with a single word.
* `render_stays_within`: so is every line of a page of paragraphs, and it is laid out without a
  failure.
-/
namespace TextPager.Man

namespace Placed

/-- The indent of a paragraph's body right of the margin; one column is left for the text. -/
def inset (width : Nat) (p : Placed) : Nat :=
  min (p.token.indentAfter p.indent) (width - p.edge width - 1)

/-- The columns left of a paragraph's body. -/
def start (width : Nat) (p : Placed) : Nat := p.edge width + p.inset width

/-- A line of a paragraph that may take more columns than the page has: a tag on its own, or a word
that is wider than the columns left behind the indent, or behind a tag filled up to it. -/
inductive Overhangs (s : Styles) (width : Nat) (p : Placed) : Text → Prop where
  | tag {tag : Text} (ht : tag ∈ p.token.tags s) :
    Overhangs s width p (Text.spaces (p.edge width) ++ tag)
  | word {word : Text} (hw : word ∈ (p.token.body s).words)
    (hwide : width - p.start width < word.width) :
    Overhangs s width p (Text.spaces (p.start width) ++ word)
  | beside {tag word : Text} (ht : tag ∈ p.token.tags s) (hnarrow : tag.width < p.inset width)
    (hw : word ∈ (p.token.body s).words) (hwide : width - p.start width < word.width) :
    Overhangs s width p (Text.spaces (p.edge width) ++ (tag.pad (p.inset width) ++ word))

/-- A column is left for the body of a paragraph. -/
theorem start_lt (p : Placed) {width : Nat} (hw : 0 < width) : p.start width < width := by
  unfold start inset edge
  omega

end Placed

/-! ## The lines of a paragraph -/

/-- A line of a paragraph is a tag, an indented line of the body, or such a line beside a tag. -/
theorem mem_tagLines {tags body : List Text} {indent : Nat} {l : Text}
    (h : l ∈ tagLines tags body indent) :
    l ∈ tags ∨ (∃ b ∈ body, l = Text.spaces indent ++ b) ∨
      ∃ tag ∈ tags, tag.width < indent ∧ ∃ b ∈ body, l = tag.pad indent ++ b := by
  have hindent : ∀ {ls : List Text}, l ∈ indentLines indent ls →
      ∃ b ∈ ls, l = Text.spaces indent ++ b := by
    intro ls hl
    obtain ⟨b, hb, rfl⟩ := List.mem_map.1 hl
    exact ⟨b, hb, rfl⟩
  unfold tagLines at h
  split at h
  · exact .inr (.inl (hindent h))
  · rename_i last hlast
    have hmem : last ∈ tags := List.mem_of_getLast? hlast
    rcases List.mem_append.1 h with h | h
    · exact .inl ((List.dropLast_sublist tags).subset h)
    · cases body with
      | nil => exact .inl (List.mem_singleton.1 h ▸ hmem)
      | cons first rest =>
        dsimp only at h
        split at h
        · rename_i hnarrow
          rcases List.mem_cons.1 h with rfl | h
          · exact .inr (.inr ⟨last, hmem, hnarrow, first, List.mem_cons_self, rfl⟩)
          · obtain ⟨b, hb, rfl⟩ := hindent h
            exact .inr (.inl ⟨b, List.mem_cons_of_mem _ hb, rfl⟩)
        · rcases List.mem_cons.1 h with rfl | h
          · exact .inl hmem
          · exact .inr (.inl (hindent h))

namespace Placed

variable {s : Styles} {p : Placed} {width : Nat} {l : Text}

/-- The lines of a paragraph, right of its margin. -/
theorem inner_of_flowing (h : p.token.Flowing) (s : Styles) (width : Nat) :
    p.inner s width = tagLines ((p.token.tags s).filter (!·.isBlank))
      ((p.token.body s).wrap (width - p.start width)) (p.inset width) := by
  rw [inner, Token.layout_of_flowing h, paragraphLines, start, ← Nat.sub_sub]
  rfl

/-- A line of a paragraph stands right of the margin, or it is blank. -/
theorem mem_lines_of_flowing (hs : s.Tidy) (h : p.token.Flowing) (hl : l ∈ p.lines s width) :
    l = [] ∨ ∃ m ∈ p.inner s width, l = Text.spaces (p.edge width) ++ m := by
  have htags : ∀ tag ∈ (p.token.tags s).filter (!·.isBlank), tag.Flat ∧ tag.isBlank = false :=
    fun tag ht =>
      have ⟨hmem, hblank⟩ := List.mem_filter.1 ht
      ⟨Token.tags_flat hs h tag hmem, by simpa using hblank⟩
  have hflat : ∀ m ∈ p.inner s width, m.Flat := by
    rw [inner_of_flowing h]
    exact forall_tagLines (fun k _ hm => (Text.flat_spaces k).append hm)
      (fun k _ _ ha hb => (ha.append (Text.flat_spaces k)).append hb)
      (fun tag ht => (htags tag ht).1) (Text.flat_wrap (Token.body_neat hs h) _)
  have hblank : ∀ m ∈ p.inner s width, m.isBlank = false := by
    rw [inner_of_flowing h]
    exact isBlank_of_mem_tagLines (fun tag ht => (htags tag ht).2)
      fun b hb => Text.isBlank_of_mem_wrap hb
  rw [lines, marginLines_eq fun m hm => (hflat m hm).newline] at hl
  rcases List.mem_append.1 hl with hl | hl
  · obtain ⟨m, hm, rfl⟩ := List.mem_map.1 hl
    exact .inr ⟨m, hm, by simp [putMargin, hblank m hm]⟩
  · left
    split at hl
    · exact List.mem_singleton.1 hl
    · cases hl

/-- A line of a paragraph is within the page, or it overhangs. -/
theorem width_le_or_overhangs (hs : s.Tidy) (hw : 0 < width) (h : p.token.Flowing)
    (hl : l ∈ p.lines s width) : l.width ≤ width ∨ p.Overhangs s width l := by
  have hstart := p.start_lt hw
  -- Behind the columns left of it, a line of the body is within the page, or it is a wide word.
  have hbody : ∀ b ∈ (p.token.body s).wrap (width - p.start width),
      p.start width + b.width ≤ width ∨
        (b ∈ (p.token.body s).words ∧ width - p.start width < b.width) := by
    intro b hb
    have hcolumns : max (width - p.start width) 1 = width - p.start width := by omega
    have hwidth := Text.width_le_or_mem_of_mem_wrap (Token.body_neat hs h) hb
    rw [hcolumns] at hwidth
    exact hwidth.imp_left fun hle => by omega
  rcases mem_lines_of_flowing hs h hl with rfl | ⟨m, hm, rfl⟩
  · exact .inl (Nat.zero_le width)
  rw [inner_of_flowing h] at hm
  rcases mem_tagLines hm with hm | ⟨b, hb, rfl⟩ | ⟨tag, ht, hnarrow, b, hb, rfl⟩
  · exact .inr (.tag (List.mem_filter.1 hm).1)
  · have hline : Text.spaces (p.edge width) ++ (Text.spaces (p.inset width) ++ b) =
        Text.spaces (p.start width) ++ b := (Text.spaces_add_append _ _ b).symm
    rw [hline]
    refine (hbody b hb).imp (fun hle => ?_) fun ⟨hword, hwide⟩ => .word hword hwide
    rwa [Text.width_spaces_append]
  · have htag := (List.mem_filter.1 ht).1
    have hterm := (Token.tags_flat hs h tag htag).terminated
    have hpadded : (tag.pad (p.inset width)).Terminated :=
      hterm.append (Text.flat_spaces _).terminated
    refine (hbody b hb).imp (fun hle => ?_) fun ⟨hword, hwide⟩ => .beside htag hnarrow hword hwide
    rwa [Text.width_spaces_append, Text.width_append hpadded,
      Text.width_pad hterm, Nat.max_eq_right (Nat.le_of_lt hnarrow), ← Nat.add_assoc]

end Placed

/-! ## Pages -/

/-- **Paragraphs stay on the page.** On a page of shifts and paragraphs, however far these shift and
indent, every line is within the width of the page, or it is a tag on its own, or it ends with a
single word that is wider than the columns left for it; a column is always left. Its texts being
strings, the page is laid out without an overflow of a sum or an underflow of a difference. -/
theorem render_stays_within {s : Styles} (hs : s = .plain ∨ s = .ansi) {width : Nat}
    (hw : 1 ≤ width) {ts : List Token} (hts : ∀ t ∈ ts, t.Flowing) :
    (∀ l ∈ (render s width ts).piecesAt '\n', l.width ≤ width ∨
        ∃ p ∈ placed 0 defaultIndent ts, p.Overhangs s width l) ∧
      (∀ p ∈ placed 0 defaultIndent ts, 1 ≤ width - p.start width) ∧
      ((∀ t ∈ ts, (t.body s).FitsString) → render? s width ts = some (render s width ts)) := by
  have htidy := tidy_of_eq hs
  have hpage := render_of_no_title (fun t ht => Token.title?_of_flowing (hts t ht)) s hw
  have hnewline : ∀ l ∈ (placed 0 defaultIndent ts).flatMap (Placed.lines s width), '\n' ∉ l := by
    intro l hl
    obtain ⟨p, -, hp⟩ := List.mem_flatMap.1 hl
    exact Placed.newline_not_mem_lines hp
  refine ⟨fun l hl => ?_, fun p _ => Nat.sub_pos_of_lt (p.start_lt hw),
    fun hbody => render?_eq hts hbody width⟩
  rw [hpage, piecesAt_ended, flatMap_piecesAt hnewline] at hl
  rcases List.mem_append.1 hl with hl | hl
  · obtain ⟨p, hp, hl⟩ := List.mem_flatMap.1 hl
    exact (Placed.width_le_or_overhangs htidy hw (hts _ (mem_placed hp)) hl).imp_right
      fun hover => ⟨p, hp, hover⟩
  · rw [List.mem_singleton.1 hl]
    exact .inl (Nat.zero_le width)

/-- Shifts and indents as far as they go, tags of both kinds, and words that are too wide. -/
def farPage : List Token :=
  [.tagged [.font .boldRoman "t u".toList, .text "tag".toList] (some (wordLimit - 1))
      [.text "\ta".toList, .option "b".toList (some "c".toList)],
    .shiftIn (wordLimit - 1), .shiftIn (wordLimit - 1), .indented (some "x".toList) none
      [.font .italic "wide".toList],
    .shiftOut (wordLimit - 3), .paragraph [.text "d e f".toList]]

theorem render_stays_within_farPage :
    (Styles.plain = .plain ∨ Styles.plain = .ansi) ∧ 1 ≤ 6 ∧ (∀ t ∈ farPage, t.Flowing) ∧
      (∀ t ∈ farPage, (t.body .plain).FitsString) ∧
      render .plain 6 farPage =
        "t u\ntag  a\n     [b\n     c]\n\n     x\n     wide\n\n     d\n     e\n     f\n\n".toList ∧
      (∀ l ∈ (render .plain 6 farPage).piecesAt '\n', l.width ≤ 6 ∨
        ∃ p ∈ placed 0 defaultIndent farPage, p.Overhangs .plain 6 l) ∧
      render? .plain 6 farPage = some (render .plain 6 farPage) := by
  have hts : ∀ t ∈ farPage, t.Flowing := by decide +kernel
  have hbody : ∀ t ∈ farPage, (t.body .plain).FitsString := by decide +kernel
  have hpage := render_stays_within (.inl rfl) (by decide : 1 ≤ 6) hts
  exact ⟨.inl rfl, by decide, hts, hbody, by decide +kernel, hpage.1, hpage.2.2 hbody⟩

end TextPager.Man
