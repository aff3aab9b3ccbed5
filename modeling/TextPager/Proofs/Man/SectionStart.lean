import TextPager.Proofs.Man.PageLines

/-!
# Sections start afresh

A line that begins a section is a point where reading and layout both start afresh. Whatever block
is open closes at it as it would at the end of the page, unless the block takes every line for
itself: a synopsis up to its own end, and a font that waits for its line. And the section is set
at the left edge with an indent of its own, so that no shift and no indent before it is felt.

**Results.**
* `OpenBlock.offer_of_beginsSection`: an open block leaves a line that begins a section.
* `tokens_append_section`: the tokens of two parts of a page, of which the second begins with a
  section, are the tokens of the one and then those of the other.
* `tokens_head_section`: the second part begins with the section's token.
* `render_append_section`: such tokens are set as two pages are.
* `renderPage_append_section`: a page is what stands before a section and then the rest.
-/
namespace TextPager

/-! ## Parts of a text -/

/-- The text is nothing but whole lines: it is empty or a newline ends it. -/
def Text.WholeLines (t : Text) : Prop := t = [] ∨ t.getLast? = some '\n'

instance (t : Text) : Decidable t.WholeLines := inferInstanceAs (Decidable (_ ∨ _))

/-- Whole lines and what follows them are read one after the other. -/
theorem Text.WholeLines.lines_append {a : Text} (h : a.WholeLines) (b : Text) :
    Text.lines (a ++ b) = a.lines ++ b.lines := by
  rcases h with rfl | h
  · rfl
  · obtain ⟨a, rfl⟩ := List.getLast?_eq_some_iff.1 h
    have hpieces (c : Text) :
        Text.piecesAt '\n' (a ++ ['\n'] ++ c) = Text.piecesAt '\n' a ++ Text.piecesAt '\n' c := by
      have hcut : ('\n' == '\n') = true := rfl
      rw [List.append_assoc, List.singleton_append]
      exact Text.pieces_append_cons _ a c hcut
    have ha : Text.piecesAt '\n' (a ++ ['\n']) = Text.piecesAt '\n' a ++ [[]] := by
      rw [← List.append_nil (a ++ ['\n']), hpieces]
      rfl
    have hb := List.dropLast_concat_getLast (Text.pieces_ne_nil (· == '\n') b)
    have hb' : Text.piecesAt '\n' b = _ := hb.symm
    simp only [Text.lines, hpieces, ha, hb', ← List.append_assoc, List.dropLast_concat,
      List.getLast?_concat]
    simp

namespace Man

/-- The line begins a section. -/
def BeginsSection (line : Text) : Prop := keyword? line = some (.heading .major)

instance (line : Text) : Decidable (BeginsSection line) := inferInstanceAs (Decidable (_ = _))

namespace OpenBlock

/-- In a synopsis, whether it stands alone or in a section. -/
def inSynopsis : OpenBlock → Bool
  | heading _ _ _ inner => inner.isSome
  | synopsis _ => true
  | _ => false

/-- A font macro still waits for its line. -/
def awaitsFont : OpenBlock → Bool
  | heading _ _ body _ | paragraph body | indented _ _ body | verbatim body | link _ _ body =>
    body.pending.isSome
  | tagged _ tags _ body => tags.pending.isSome || body.pending.isSome
  | synopsis s => s.body.pending.isSome
  | font _ => true

end OpenBlock

/-- Nothing is open that takes every line for itself. -/
def Interruptible (current : Option OpenBlock) : Prop :=
  ∀ block ∈ current, block.inSynopsis = false ∧ block.awaitsFont = false

instance (current : Option OpenBlock) : Decidable (Interruptible current) :=
  inferInstanceAs (Decidable (∀ block ∈ current, _))

/-! ## Reading -/

/-- Sections are begun by one macro only. -/
theorem Keyword.name_of_section {n : Text} (h : ofName n = .heading .major) : n = "SH".toList := by
  have hname : ∀ k ∈ structural, k.2 = .heading .major → k.1.toList = "SH".toList := by decide
  unfold ofName at h
  split at h
  · rename_i k hk
    have hfound := List.find?_some hk
    rw [beq_iff_eq] at hfound
    rw [← hfound]
    exact hname k (List.mem_of_find?_eq_some hk) h
  · split at h <;> cases h

namespace BeginsSection

variable {line : Text}

theorem request (h : BeginsSection line) :
    ∃ args, Request.ofLine? line = some ⟨.heading .major, args⟩ := by
  obtain ⟨⟨keyword, args⟩, hr, hk⟩ := Option.map_eq_some_iff.1 h
  cases hk
  exact ⟨args, hr⟩

theorem isStructural (h : BeginsSection line) : isStructural line = true := by
  rw [Man.isStructural, h]
  rfl

/-- No comment begins a section, since no macro name begins with a backslash. -/
theorem isComment (h : BeginsSection line) : isComment line = false := by
  obtain ⟨args, hr⟩ := h.request
  unfold Man.isComment
  split
  · rename_i t
    have hk : Keyword.ofName (List.takeWhile (fun c => !isSpace c) ('\\' :: '"' :: t)) =
        .heading .major := congrArg Request.keyword (Option.some.inj hr)
    have hspace : isSpace '\\' = false := by decide
    have hn := Keyword.name_of_section hk
    rw [List.takeWhile_cons_of_pos (by simp [hspace])] at hn
    cases hn
  · simp [Request.ofLine?] at hr
  · rfl

theorem isEmpty (h : BeginsSection line) : line.isEmpty = false := by
  obtain ⟨args, hr⟩ := h.request
  cases line with
  | nil => cases hr
  | cons c line => rfl

end BeginsSection

section Reading

variable {line : Text}

theorem absorb_of_beginsSection (h : BeginsSection line) {body : Body}
    (hbody : body.pending.isSome = false) (resume : Body → OpenBlock) :
    OpenBlock.absorb body line resume = .declines (resume body).close := by
  have hnone : body.pending.isNone = true := by simpa using hbody
  simp [OpenBlock.absorb, h.isEmpty, h.isStructural, hnone]

/-- An open block leaves a line that begins a section, and closes as at the end of the page. -/
theorem OpenBlock.offer_of_beginsSection (h : BeginsSection line) {b : OpenBlock}
    (hs : b.inSynopsis = false) (hf : b.awaitsFont = false) :
    b.offer line = .declines b.close := by
  obtain ⟨args, hr⟩ := h.request
  have hkey : keyword? line = some (.heading .major) := h
  cases b with
  | heading rank heading body inner =>
    cases inner with
    | some s => cases hs
    | none =>
      cases heading with
      | none => simp [offer, h.isEmpty, h.isStructural]
      | some heading => simpa [offer, hr] using absorb_of_beginsSection h hf _
  | paragraph body => exact absorb_of_beginsSection h hf _
  | indented tag indent body => exact absorb_of_beginsSection h hf _
  | tagged indent tags awaitsTag body =>
    have hbody : body.pending.isSome = false := (Bool.or_eq_false_iff.1 hf).2
    cases awaitsTag with
    | true => simp [offer, h.isEmpty, h.isStructural, hkey]
    | false => simpa [offer, hkey] using absorb_of_beginsSection h hbody _
  | verbatim body => simp [offer, h.isStructural, hkey]
  | synopsis s => cases hs
  | link kind address body => simp [offer, hr, h.isEmpty, h.isStructural]
  | font f => cases hf

/-- A line that begins a section is read as if no block were open. -/
theorem readFrom_of_beginsSection (h : BeginsSection line) (rest : List Text)
    {current : Option OpenBlock} (hc : Interruptible current) :
    readFrom current (line :: rest) =
      (current.map OpenBlock.close).toList ++ readFrom none (line :: rest) := by
  cases current with
  | none => rfl
  | some b =>
    obtain ⟨hs, hf⟩ := hc b rfl
    have hoffer := OpenBlock.offer_of_beginsSection h hs hf
    simp [readFrom_cons, readLine, h.isComment, hoffer]

/-- **Reading starts afresh at a section.** Unless the first part leaves something open that takes
every line for itself, the second part, which begins with a section, is read as a page of its
own. -/
theorem tokens_append_section {a b : Text} (ha : a.WholeLines) (hb : b.lines.head? = some line)
    (hline : BeginsSection line) (hopen : Interruptible (readLines none a.lines).2) :
    tokens (a ++ b) = tokens a ++ tokens b := by
  obtain ⟨rest, hrest⟩ : ∃ rest, b.lines = line :: rest := by
    cases hl : b.lines with
    | nil => rw [hl] at hb; cases hb
    | cons l rest => rw [hl] at hb; cases hb; exact ⟨rest, rfl⟩
  have hread := readFrom_of_beginsSection hline rest hopen
  calc tokens (a ++ b) = readFrom none (a.lines ++ line :: rest) := by
        rw [tokens, ha.lines_append, hrest]
    _ = (readLines none a.lines).1 ++ readFrom (readLines none a.lines).2 (line :: rest) :=
        readFrom_append none a.lines (line :: rest)
    _ = tokens a ++ tokens b := by
        rw [hread, ← List.append_assoc, tokens, tokens, hrest]
        rfl

/-! ## The token of a section -/

/-- The token is that of a section. -/
def Token.IsSection (t : Token) : Prop := ∃ heading contents, t = .heading .major heading contents

/-- The open block will close with the token of a section. -/
def OpenBlock.IsSection (b : OpenBlock) : Prop :=
  ∃ h body inner, b = .heading .major h body inner

theorem OpenBlock.IsSection.close {b : OpenBlock} (hb : b.IsSection) : b.close.IsSection := by
  obtain ⟨h, body, inner, rfl⟩ := hb
  exact ⟨_, _, rfl⟩

/-- A section that is open stays open, or its token is complete. -/
def Offer.InSection : Offer → Prop
  | .keeps b => b.IsSection
  | .closes t | .declines t => t.IsSection

theorem absorb_inSection (body : Body) (line : Text) {resume : Body → OpenBlock}
    (h : ∀ body, (resume body).IsSection) : (OpenBlock.absorb body line resume).InSection := by
  unfold OpenBlock.absorb
  split
  · exact (h body).close
  · split
    · exact (h body).close
    · exact h _

theorem OpenBlock.offer_inSection {b : OpenBlock} (hb : b.IsSection) (line : Text) :
    (b.offer line).InSection := by
  obtain ⟨h, body, inner, rfl⟩ := hb
  cases inner with
  | some s =>
    simp only [offer]
    split <;> exact ⟨_, _, _, rfl⟩
  | none =>
    cases h with
    | none =>
      simp only [offer]
      split
      · exact ⟨_, _, _, rfl⟩
      · split
        · exact ⟨_, _, rfl⟩
        · exact ⟨_, _, _, rfl⟩
    | some h =>
      simp only [offer]
      split
      · exact ⟨_, _, _, rfl⟩
      · exact absorb_inSection body line fun _ => ⟨_, _, _, rfl⟩

/-- What is read with a section open begins with the token of the section. -/
theorem readFrom_head_section {b : OpenBlock} (hb : b.IsSection) (lines : List Text) :
    ∃ t ts, readFrom (some b) lines = t :: ts ∧ t.IsSection := by
  induction lines generalizing b with
  | nil => exact ⟨b.close, [], rfl, hb.close⟩
  | cons line lines ih =>
    have hoffer := b.offer_inSection hb line
    rw [readFrom_cons]
    by_cases hcomment : isComment line = true
    · have hline : readLine (some b) line = ([], some b) := by simp [readLine, hcomment]
      rw [hline]
      exact ih hb
    · cases ho : b.offer line with
      | keeps next =>
        rw [ho] at hoffer
        have hline : readLine (some b) line = ([], some next) := by simp [readLine, hcomment, ho]
        rw [hline]
        exact ih hoffer
      | closes t =>
        rw [ho] at hoffer
        have hline : readLine (some b) line = ([t], none) := by simp [readLine, hcomment, ho]
        rw [hline]
        exact ⟨t, _, rfl, hoffer⟩
      | declines t =>
        rw [ho] at hoffer
        have hline : readLine (some b) line = (t :: (startLine line).1, (startLine line).2) := by
          simp [readLine, hcomment, ho]
        rw [hline]
        exact ⟨t, _, rfl, hoffer⟩

/-- A page that begins with a section has the section's token first. -/
theorem tokens_head_section {b : Text} (hb : b.lines.head? = some line)
    (hline : BeginsSection line) : ∃ t ts, tokens b = t :: ts ∧ t.IsSection := by
  obtain ⟨args, hr⟩ := hline.request
  cases hl : b.lines with
  | nil => rw [hl] at hb; cases hb
  | cons l rest =>
    rw [hl] at hb
    cases hb
    have hopen : ∃ block : OpenBlock, startLine line = ([], some block) ∧ block.IsSection := by
      simp only [startLine, hr]
      exact ⟨_, rfl, _, _, _, rfl⟩
    obtain ⟨block, hstart, hblock⟩ := hopen
    have hread : tokens b = readFrom (some block) rest := by
      simp [tokens, hl, readFrom_cons, readLine, hline.isComment, hstart]
    rw [hread]
    exact readFrom_head_section hblock rest

end Reading

/-! ## Layout -/

/-- A section is set at the left edge, with no regard to the margin and the indent before it. -/
theorem renderFrom_section (s : Styles) (width margin indent : Nat) {t : Token} (ht : t.IsSection)
    (ts : List Token) :
    renderFrom s width margin indent (t :: ts) = renderFrom s width 0 defaultIndent (t :: ts) := by
  obtain ⟨heading, contents, rfl⟩ := ht
  simp [renderFrom, Token.marginAt, Token.indentAfter, Token.render, Token.layout]

/-- **Layout starts afresh at a section.** After tokens without a title, a section and what follows
it are set as on a page of their own. -/
theorem render_append_section (s : Styles) (width : Nat) {ts : List Token}
    (hts : ∀ t ∈ ts, t.title? = none) {t : Token} (ht : t.IsSection) (us : List Token) :
    render s width (ts ++ t :: us) = render s width ts ++ render s width (t :: us) := by
  simp only [render, renderFrom_append, footText_append hts, footText_of_no_title hts,
    List.append_nil, List.append_assoc, renderFrom_section s _ _ _ ht]

/-- **A section starts afresh.** A page of which a part of whole lines is followed by a section is
laid out as that part and then the rest, at every width and with every style table, unless the
part has a title, or leaves a synopsis open, or a font that waits for its line. -/
theorem renderPage_append_section (s : Styles) (width : Nat) {a b line : Text}
    (ha : a.WholeLines) (hb : b.lines.head? = some line) (hline : BeginsSection line)
    (htitle : ∀ t ∈ tokens a, t.title? = none)
    (hopen : Interruptible (readLines none a.lines).2) :
    renderPage s width (a ++ b) = renderPage s width a ++ renderPage s width b := by
  obtain ⟨t, ts, hts, ht⟩ := tokens_head_section hb hline
  rw [renderPage, tokens_append_section ha hb hline hopen, hts,
    render_append_section s width htitle ht ts, ← hts]
  rfl

/-- Lines that end in an open paragraph, right of a margin and with a deep indent. -/
def unfinished : Text := ".SH A\n.RS 3\n.IP t 9\n.B x y\n".toList

/-- A section, and a paragraph that takes its indent from what stands before it. -/
def nextSection : Text := ".SH B\n.IP u\nz\n".toList

theorem renderPage_append_section_unfinished :
    unfinished.WholeLines ∧ nextSection.lines.head? = some ".SH B".toList ∧
      BeginsSection ".SH B".toList ∧ (∀ t ∈ tokens unfinished, t.title? = none) ∧
      Interruptible (readLines none unfinished.lines).2 ∧
      renderPage .plain 20 (unfinished ++ nextSection) =
        "A\n\n   t        x y\n\nB\n\nu   z\n\n".toList := by
  have hwhole : unfinished.WholeLines := by decide
  have hfirst : nextSection.lines.head? = some ".SH B".toList := by decide
  have hsection : BeginsSection ".SH B".toList := by decide
  have htitle : ∀ t ∈ tokens unfinished, t.title? = none := by decide
  have hopen : Interruptible (readLines none unfinished.lines).2 := by decide
  have hpage := renderPage_append_section .plain 20 hwhole hfirst hsection htitle hopen
  exact ⟨hwhole, hfirst, hsection, htitle, hopen, hpage.trans (by decide +kernel)⟩

end Man

end TextPager
