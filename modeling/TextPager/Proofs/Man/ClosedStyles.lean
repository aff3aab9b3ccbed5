import TextPager.Proofs.Man.StyledLayout
import TextPager.Proofs.Text.KeptEscapes
import TextPager.Proofs.Viewer.CarriedPen

/-!
# No style is left open

Emphasis and links are opened and closed by different sequences, and layout then moves the words
between them to other lines, cuts lines to columns and puts spaces around them. It keeps every
sequence in its place among the others (`Text.escapes`), and where the pen stands depends on the
sequences alone. So it is enough that each phrase closes what it opens: `Closed` sequences leave
plain text plain, inside a link or outside. A link begins with a sequence that an early bell in its
address may end, and still closes behind its text.

**Results.**
* `Pen.afterLines_eq`: the pen after lines is told by their escape sequences.
* `phrase_sealed`, `linkText_closes`: a phrase closes its emphasis; a link closes itself.
* `layout_closes`: so does every token, laid out at any width.
* `spansFrom_render_initial`: at the end of any prefix of a page the pen is as it was at the start.
-/
namespace TextPager

namespace Pen

/-- Where the pen stands is told by the escape sequences alone. -/
theorem after_eq (p : Pen) (ss : List Segment) :
    p.after ss = (ss.filterMap Segment.escape?).foldl apply p := by
  induction ss generalizing p with
  | nil => rfl
  | cons s ss ih => cases s <;> exact ih _

theorem afterLines_eq (p : Pen) (ls : List Text) :
    p.afterLines ls = (ls.flatMap Text.escapes).foldl apply p := by
  induction ls generalizing p with
  | nil => rfl
  | cons l ls ih =>
    rw [afterLines, List.foldl_cons, ← afterLines, ih, after_eq, List.flatMap_cons,
      List.foldl_append]
    rfl

theorem afterLines_append (p : Pen) (a b : List Text) :
    p.afterLines (a ++ b) = (p.afterLines a).afterLines b := List.foldl_append

end Pen

/-- Sequences that leave plain text plain, inside a link or outside. -/
def Closed (es : List Text) : Prop :=
  ∀ inLink, es.foldl Pen.apply ⟨.plain, inLink⟩ = ⟨.plain, inLink⟩

namespace Closed

instance (es : List Text) : Decidable (Closed es) :=
  inferInstanceAs
    (Decidable (∀ inLink, es.foldl Pen.apply ⟨.plain, inLink⟩ = ⟨.plain, inLink⟩))

theorem nil : Closed [] := fun _ => rfl

theorem append {es fs : List Text} (h : Closed es) (k : Closed fs) : Closed (es ++ fs) := by
  intro inLink
  rw [List.foldl_append, h, k]

theorem flatMap {α : Type} {xs : List α} {f : α → List Text} (h : ∀ x ∈ xs, Closed (f x)) :
    Closed (xs.flatMap f) := by
  induction xs with
  | nil => exact nil
  | cons x xs ih =>
    obtain ⟨hx, hxs⟩ := List.forall_mem_cons.1 h
    exact hx.append (ih hxs)

end Closed

/-- A neat text that closes the emphasis it opens. -/
structure Text.Sealed (t : Text) : Prop where
  neat : t.Neat
  closed : Closed t.escapes

namespace Text.Sealed

theorem of_not_mem {t : Text} (h : esc ∉ t) : t.Sealed :=
  ⟨Text.neat_of_not_mem h, by rw [Text.escapes_of_not_mem h]; exact .nil⟩

theorem append {a b : Text} (ha : a.Sealed) (hb : b.Sealed) : (a ++ b).Sealed := by
  refine ⟨ha.neat.append hb.neat, ?_⟩
  rw [Text.escapes_append ha.neat.terminated]
  exact ha.closed.append hb.closed

theorem joinWords {ws : List Text} (h : ∀ w ∈ ws, w.Sealed) : (Text.joinWords ws).Sealed := by
  refine ⟨Text.neat_joinWords fun w hw => (h w hw).neat, ?_⟩
  rw [Text.escapes_joinWords fun w hw => (h w hw).neat.terminated]
  exact .flatMap fun w hw => (h w hw).closed

end Text.Sealed

namespace Man

open Text (Shows Sealed)

/-! ## Phrases -/

theorem sealed_of_clean {t : Text} (h : madeOf Clean t) : t.Sealed := .of_not_mem (not_mem_esc h)

/-- Emphasis around a text without sequences is closed behind it. -/
theorem apply_sealed (e : Emphasis) {x : Text} (h : madeOf Clean x) :
    (Styles.ansi.apply e x).Sealed := by
  have hx := sealed_of_clean h
  have hstyled : ∀ start : Text, Shows start [] →
      Closed (start.escapes ++ Styles.ansi.normal.escapes) →
      Closed (Styles.ansi.styled start x).escapes := by
    intro start hstart hclosed
    unfold Styles.styled
    split
    · exact hx.closed
    · have hterm := hstart.neat.terminated
      rw [Text.escapes_append (hterm.append hx.neat.terminated), Text.escapes_append hterm,
        Text.escapes_of_not_mem (not_mem_esc h), List.append_nil]
      exact hclosed
  refine ⟨(apply_shows ansi_tidy e (shows_self h)).neat, ?_⟩
  cases e with
  | bold => exact hstyled _ ansi_tidy.bold (by decide)
  | underline => exact hstyled _ ansi_tidy.underline (by decide)
  | roman => exact hx.closed

theorem alternate_sealed {ts : List Text} (h : ∀ t ∈ ts, madeOf Clean t) (even odd : Emphasis) :
    ∀ x ∈ Font.alternate .ansi even odd ts, x.Sealed := by
  induction ts generalizing even odd with
  | nil => simp [Font.alternate]
  | cons t ts ih =>
    obtain ⟨ht, hts⟩ := List.forall_mem_cons.1 h
    exact List.forall_mem_cons.2 ⟨apply_sealed even ht, ih hts odd even⟩

theorem render_sealed (f : Font) {t : Text} (h : madeOf Clean t) : (f.render .ansi t).Sealed := by
  unfold Font.render
  split
  · rename_i even odd _
    have hpieces : ∀ p ∈ t.piecesAt ' ', madeOf Clean p := fun p hp c hc =>
      h c (Text.mem_of_mem_pieces hp hc)
    exact .joinWords (alternate_sealed hpieces even odd)
  · exact apply_sealed _ h

theorem optionText_sealed {name : Text} {argument : Option Text} (hn : madeOf Clean name)
    (ha : ∀ a ∈ argument, madeOf Clean a) : (optionText .ansi name argument).Sealed := by
  have hmark : ∀ c : Char, esc ≠ c → Text.Sealed [c] := fun c hc => .of_not_mem (by simpa using hc)
  have hname := (hmark '[' (by decide)).append (apply_sealed .bold hn)
  cases argument with
  | none => exact hname.append (hmark ']' (by decide))
  | some a =>
    have hargument := apply_sealed .underline (ha a rfl)
    exact ((hname.append (hmark ' ' (by decide))).append hargument).append (hmark ']' (by decide))

/-- What a token adds to running text closes its emphasis. -/
theorem phrase_sealed {t : Token} (h : t.Unit Clean) : (t.phrase .ansi).Sealed := by
  cases t with
  | text l | unknown l => exact sealed_of_clean h
  | font f t => exact render_sealed f h
  | option name argument => exact optionText_sealed h.1 h.2
  | synopsis command contents => exact apply_sealed .bold h.1
  | _ => exact .of_not_mem (by simp [Token.phrase])

theorem prose_sealed {ts : List Token} (h : ∀ t ∈ ts, t.Inline Clean) : (prose .ansi ts).Sealed :=
  .joinWords (List.forall_mem_map.2 fun t ht => phrase_sealed (h t ht).unit)

/-! ## Lines -/

theorem flatMap_escapes_indentLines (k : Nat) (ls : List Text) :
    (indentLines k ls).flatMap Text.escapes = ls.flatMap Text.escapes := by
  rw [indentLines, List.flatMap_map]
  exact List.flatMap_congr fun l _ => Text.escapes_spaces_append k l

/-- The lines of a tagged paragraph keep the sequences of its tags and its body, in this order. -/
theorem flatMap_escapes_tagLines {tags : List Text} (h : ∀ t ∈ tags, t.Terminated)
    (body : List Text) (indent : Nat) :
    (tagLines tags body indent).flatMap Text.escapes =
      tags.flatMap Text.escapes ++ body.flatMap Text.escapes := by
  unfold tagLines
  cases hl : tags.getLast? with
  | none =>
    rw [List.getLast?_eq_none_iff.1 hl]
    exact flatMap_escapes_indentLines indent body
  | some last =>
    obtain ⟨init, rfl⟩ := List.getLast?_eq_some_iff.1 hl
    have hlast : last.Terminated := h last (List.mem_append_right _ List.mem_cons_self)
    rw [List.dropLast_concat, List.flatMap_append, List.flatMap_append, List.append_assoc]
    congr 1
    cases body with
    | nil => simp
    | cons first rest =>
      have hpadded : (last.pad indent).Terminated :=
        hlast.append (Text.flat_spaces (indent - last.width)).terminated
      dsimp only
      split
      · simp [flatMap_escapes_indentLines, Text.escapes_append hpadded, Text.escapes_pad hlast]
      · simp [flatMap_escapes_indentLines]

/-- A paragraph of sealed tags and text closes its emphasis; blank tags are left out. -/
theorem paragraphLines_closed {tags : List Text} {body : Text} (ht : ∀ t ∈ tags, t.Sealed)
    (hb : body.Sealed) (width indent : Nat) :
    Closed ((paragraphLines tags body width indent).flatMap Text.escapes) := by
  have hkept : ∀ t ∈ tags.filter (!·.isBlank), Sealed t := fun t h => ht t (List.mem_filter.1 h).1
  rw [paragraphLines, flatMap_escapes_tagLines fun t h => (hkept t h).neat.terminated,
    Text.flatMap_escapes_wrap hb.neat]
  exact .append (.flatMap fun t h => (hkept t h).closed) hb.closed

theorem flatMap_escapes_hung (hang : Nat) {gs : List (List Text)}
    (h : ∀ g ∈ gs, ∀ u ∈ g, u.Terminated) :
    (hung hang gs).flatMap Text.escapes = gs.flatten.flatMap Text.escapes := by
  rw [← Text.flatMap_escapes_setGroups 0 h]
  cases gs with
  | nil => rfl
  | cons g gs =>
    simp [hung, Text.setGroups, List.flatMap_map, Text.escapes_spaces_append]

theorem Command.lines_closed {c : Command} (h : c.IsClean) (width : Nat) :
    Closed ((c.lines .ansi width).flatMap Text.escapes) := by
  have hphrases : ∀ x ∈ c.phrases .ansi, x.Sealed :=
    List.forall_mem_cons.2 ⟨apply_sealed .bold h.1,
      List.forall_mem_map.2 fun t ht => phrase_sealed (h.2 t ht)⟩
  have hterm : ∀ g ∈ c.groups .ansi width, ∀ u ∈ g, u.Terminated := fun g hg u hu =>
    (hphrases u (Text.mem_of_mem_groups hg hu)).neat.terminated
  rw [lines_eq, flatMap_escapes_hung _ hterm, groups, Text.flatten_groups]
  exact .flatMap fun x hx => (hphrases x hx).closed

theorem synopsisSetting_closed {name : Text} {contents : List Token} (hn : madeOf Clean name)
    (hc : ∀ t ∈ contents, t.Unit Clean) (width : Nat) :
    Closed ((synopsisSetting name contents .ansi width).flatMap Text.escapes) := by
  rw [synopsisSetting, List.flatMap_assoc]
  exact .flatMap fun c h => Command.lines_closed (commands_clean hn hc c h) width

theorem Chunk.lines_closed {c : Chunk}
    (h : c.All (Token.Inline Clean) fun name contents =>
      madeOf Clean name ∧ ∀ t ∈ contents, t.Unit Clean) (width : Nat) :
    Closed ((c.lines .ansi width).flatMap Text.escapes) := by
  cases c with
  | prose ts =>
    have hprose := prose_sealed h
    rw [lines, ← Man.prose, Text.flatMap_escapes_wrap hprose.neat]
    exact hprose.closed
  | synopsis name contents =>
    -- The lines are ended and read again, which takes carriage returns off and no sequence.
    have hneat := neat_synopsisSetting h.1 h.2 ansi_tidy width
    have hflat := (synopsis_settles h.1 h.2).flat width
    rw [lines, ← synopsisSetting, lines_ended fun l hl => (hflat.1 l hl).newline,
      List.flatMap_map, List.flatMap_congr fun l hl => Text.escapes_dropReturn (hneat l hl)]
    exact synopsisSetting_closed h.1 h.2 width

theorem sectionLines_closed {ts : List Token} (h : ∀ t ∈ ts, t.Part Clean) (width : Nat) :
    Closed ((sectionLines .ansi ts width []).flatMap Text.escapes) := by
  have hparts : ∀ t ∈ ts, t.PartAll (Token.Inline Clean) fun name contents =>
      madeOf Clean name ∧ ∀ t ∈ contents, t.Unit Clean := by
    intro t ht
    have hpart := h t ht
    cases t <;> exact hpart
  have hclean := (forall_chunks_iff _ _ [] ts).2 ⟨by simp, hparts⟩
  have hlines := sectionLines_eq h .ansi width []
  rw [List.map_nil] at hlines
  rw [hlines, flatMap_escapes_indentLines, List.flatMap_assoc]
  exact .flatMap fun c hc => Chunk.lines_closed (hclean c hc) width

/-- Lines cut to columns keep the sequences after the cut. -/
theorem verbatim_closed {ts : List Token} (h : ∀ t ∈ ts, t.Inline Clean) (width : Nat) :
    Closed (((ts.map (Token.phrase .ansi)).map (·.truncate width)).flatMap Text.escapes) := by
  rw [List.map_map, List.flatMap_map]
  refine .flatMap fun t ht => ?_
  have hphrase := phrase_sealed (h t ht).unit
  rw [Function.comp_apply, Text.escapes_truncate]
  exact hphrase.closed

/-! ## Links -/

/-- The beginning of a link is the sequence that opens it, and the end of that sequence as one of
its own if a bell in the target came first. -/
theorem escapes_linkStart {target : Text} (he : esc ∉ target) :
    ∃ rest more, (linkStart target).escapes = ("\x1b]8;;".toList ++ rest) :: more ∧
      ∀ e ∈ more, e = "\x1b\\".toList := by
  have hsegments : ∀ v : Text, (Text.segments ("\x1b]8;;".toList ++ v)) =
      .escape ("\x1b]8;;".toList ++ (Text.segmentsFrom (.command false) v).1) ::
        (Text.segmentsFrom (.command false) v).2 := fun v => rfl
  refine ⟨(Text.segmentsFrom (.command false) (target ++ "\x1b\\".toList)).1,
    (Text.segmentsFrom (.command false) (target ++ "\x1b\\".toList)).2.filterMap Segment.escape?,
    ?_, ?_⟩
  · unfold linkStart
    rw [List.append_assoc, Text.escapes, hsegments, List.filterMap_cons]
    rfl
  by_cases hb : bell ∈ target
  · obtain ⟨front, behind, rfl, hfront⟩ := List.eq_append_cons_of_mem hb
    have hef : esc ∉ front := fun h => he (List.mem_append_left _ h)
    have heb : esc ∉ behind := fun h => he (List.mem_append_right _ (List.mem_cons_of_mem _ h))
    -- Behind the bell the scan is on the ground.
    have hground : (Text.segmentsFrom (.command false) (bell :: (behind ++ "\x1b\\".toList))).2 =
        Text.segments (behind ++ "\x1b\\".toList) := rfl
    have hend : Text.escapes "\x1b\\".toList = ["\x1b\\".toList] := rfl
    rw [List.append_assoc, List.cons_append, (command_append hef hfront _).2, hground,
      ← Text.escapes, Text.escapes_append (Text.terminated_of_not_mem heb),
      Text.escapes_of_not_mem heb, List.nil_append, hend]
    exact fun e h => List.mem_singleton.1 h
  · rw [(command_append he hb _).2]
    intro e h
    cases h

/-- A link leaves the pen as it was outside any link, whatever its address. -/
theorem linkText_closes (kind : LinkKind) {address contents punctuation : Text}
    (ha : madeOf Clean address) (hc : contents.Sealed) (hp : madeOf Clean punctuation) :
    (linkText .ansi kind address contents punctuation).escapes.foldl Pen.apply .initial =
      .initial := by
  have hscheme : madeOf Clean kind.scheme := Text.forall_mem_of_all (by cases kind <;> decide)
  have htarget : esc ∉ kind.scheme ++ address := not_mem_esc (hscheme.append ha)
  have hstart := (linkStart_spill htarget).1
  have hshown : (linkShown address contents).Sealed := by
    unfold linkShown
    split
    · exact sealed_of_clean ha
    · refine ⟨Text.neat_joinWords fun w hw => Text.mem_words_neat hc.neat hw, ?_⟩
      rw [Text.escapes_joinWords_words hc.neat]
      exact hc.closed
  have hend : Shows "\x1b]8;;\x1b\\".toList [] := ⟨by decide, by decide, by decide⟩
  have hmiddle := hstart.append hshown.neat.terminated
  obtain ⟨rest, more, hopen, hmore⟩ := escapes_linkStart htarget
  -- The start changes no style; the text is closed; the end leaves the link.
  have hbegin : (linkStart (kind.scheme ++ address)).escapes.foldl Pen.apply .initial =
      ⟨.plain, ((linkStart (kind.scheme ++ address)).escapes.foldl Pen.apply .initial).inLink⟩ := by
    have hkeep : ∀ p : Pen, more.foldl Pen.apply p = p := by
      clear hopen
      intro p
      induction more with
      | nil => rfl
      | cons e more ih =>
        obtain ⟨rfl, hrest⟩ := List.forall_mem_cons.1 hmore
        exact ih hrest
    rw [hopen, List.foldl_cons, hkeep]
    rfl
  have hleave : ∀ inLink, (Text.escapes "\x1b]8;;\x1b\\".toList).foldl Pen.apply ⟨.plain, inLink⟩ =
      .initial := by decide
  rw [linkText_eq, Text.escapes_append (hmiddle.append hend.neat.terminated),
    Text.escapes_append hmiddle, Text.escapes_append hstart,
    Text.escapes_of_not_mem (not_mem_esc hp), List.append_nil, List.foldl_append,
    List.foldl_append, hbegin, hshown.closed, hleave]

/-! ## Tokens -/

theorem unstyled_closed {ls : List Text} (h : ∀ l ∈ ls, madeOf Clean l) :
    Closed (ls.flatMap Text.escapes) :=
  .flatMap fun l hl => (sealed_of_clean (h l hl)).closed

/-- Every token, laid out at any width, leaves the pen as it was at the start of a page. -/
theorem layout_closes {t : Token} (h : t.Built Clean) (width indent : Nat) :
    Pen.initial.afterLines (t.layout .ansi width indent) = .initial := by
  have hclosed : ∀ ls : List Text, Closed (ls.flatMap Text.escapes) →
      t.layout .ansi width indent = ls →
      Pen.initial.afterLines (t.layout .ansi width indent) = .initial := by
    intro ls hls hl
    rw [hl, Pen.afterLines_eq]
    exact hls false
  cases t with
  | text l | unknown l =>
    exact hclosed [l] (unstyled_closed (List.forall_mem_singleton.2 h)) (by simp [Token.layout])
  | title t => exact hclosed _ (unstyled_closed (header_clean h width)) (by simp [Token.layout])
  | shiftIn | shiftOut => exact hclosed [] .nil (by simp [Token.layout])
  | heading rank h' contents =>
    have hline := (Text.Sealed.of_not_mem (Text.not_mem_spaces (by decide) rank.lead)).append
      (apply_sealed .bold h.1)
    have hsection := sectionLines_closed h.2 (max (width - sectionIndent) 1)
    exact hclosed (_ :: _) (hline.closed.append hsection) (by simp [Token.layout])
  | paragraph contents =>
    have htags : ∀ t ∈ ([] : List Text), t.Sealed := by simp
    refine hclosed _ (paragraphLines_closed htags (prose_sealed h) width defaultIndent) ?_
    simp [Token.layout, phrases_eq h, prose]
  | indented tag i contents =>
    have htag : ∀ t ∈ tag.toList, Sealed t := fun t ht =>
      sealed_of_clean (h.1 t (Option.mem_toList.1 ht))
    refine hclosed _ (paragraphLines_closed htag (prose_sealed h.2) width (i.getD indent)) ?_
    simp [Token.layout, phrases_eq h.2, prose]
  | tagged tags i contents =>
    have htags : ∀ t ∈ tags.map (Token.phrase .ansi), Sealed t :=
      List.forall_mem_map.2 fun t ht => phrase_sealed (h.2.1 t ht).unit
    refine hclosed _ (paragraphLines_closed htags (prose_sealed h.2.2) width (i.getD indent)) ?_
    simp [Token.layout, phrases_eq h.2.1, phrases_eq h.2.2, prose]
  | verbatim ls => exact hclosed _ (verbatim_closed h width) (by simp [Token.layout, phrases_eq h])
  | synopsis name contents =>
    refine hclosed _ (synopsisSetting_closed h.1 h.2 width) ?_
    simpa [Token.layout, synopsisSetting] using synopsisLines_eq h.2 .ansi width name []
  | option name argument =>
    refine hclosed [optionText .ansi name argument] ?_ (by simp [Token.layout])
    simpa using (optionText_sealed h.1 h.2).closed
  | link kind address contents punctuation =>
    have hlink := linkText_closes kind h.1 (prose_sealed h.2.1) h.2.2
    rw [Pen.afterLines_eq]
    simpa [Token.layout, phrases_eq h.2.1, prose] using hlink
  | font f t =>
    refine hclosed [f.render .ansi t] ?_ (by simp [Token.layout])
    simpa using (render_sealed f h).closed

/-- So does every token where it stands on a page. -/
theorem Placed.lines_closes {p : Placed} (h : p.token.Built Clean) (width : Nat) :
    Pen.initial.afterLines (p.lines .ansi width) = .initial := by
  have hput : ∀ l : Text, (putMargin (p.edge width) l).escapes = l.escapes := by
    intro l
    unfold putMargin
    split
    · rfl
    · exact Text.escapes_spaces_append _ l
  have hgap : (p.gap .ansi width).flatMap Text.escapes = [] := by
    unfold gap
    split <;> rfl
  rw [(lines_eq h width).1, Pen.afterLines_eq, List.flatMap_append, hgap, List.append_nil,
    List.flatMap_map, List.flatMap_congr fun l _ => hput l, ← Pen.afterLines_eq]
  exact layout_closes h _ _

/-! ## The page -/

theorem afterLines_flatMap_placed {ps : List Placed} (h : ∀ p ∈ ps, p.token.Built Clean)
    (width : Nat) :
    Pen.initial.afterLines (ps.flatMap (Placed.lines .ansi width)) = .initial := by
  induction ps with
  | nil => rfl
  | cons p ps ih =>
    obtain ⟨hp, hps⟩ := List.forall_mem_cons.1 h
    rw [List.flatMap_cons, Pen.afterLines_append, Placed.lines_closes hp, ih hps]

/-- Clean tokens on a page leave the pen as it was at the start. -/
theorem afterLines_render {ts : List Token} (h : ∀ t ∈ ts, t.Built Clean) (width : Nat) :
    Pen.initial.afterLines ((render .ansi width ts).piecesAt '\n') = .initial := by
  have hfoot : ((footText ts (max width 1)).piecesAt '\n').flatMap Text.escapes = [] := by
    refine List.flatMap_eq_nil_iff.2 fun l hl => Text.escapes_of_not_mem fun he => ?_
    exact esc_not_mem_footText h _ (Text.mem_of_mem_pieces hl he)
  have hlines : ∀ l ∈ (placed 0 defaultIndent ts).flatMap (Placed.lines .ansi (max width 1)),
      '\n' ∉ l := by
    intro l hl
    obtain ⟨p, -, hl⟩ := List.mem_flatMap.1 hl
    exact Placed.newline_not_mem_lines hl
  rw [render, renderFrom_eq, piecesAt_ended_append, flatMap_piecesAt hlines, Pen.afterLines_append,
    afterLines_flatMap_placed (fun p hp => h _ (mem_placed hp)), Pen.afterLines_eq, hfoot]
  rfl

/-- **No style leaks out of a token.** After the lines of any first tokens of a page, at any width,
the pen is as it was before the first line: plain, and in no link. -/
theorem spansFrom_render_initial {page : Text} (h : esc ∉ page) {ts : List Token}
    (hts : ts <+: tokens page) (width : Nat) :
    ((render .ansi width ts).piecesAt '\n').foldl
      (fun pen line => (spansFrom pen [] 0 line.segments).2) .initial = .initial := by
  have hpen : (fun (pen : Pen) (line : Text) => (spansFrom pen [] 0 line.segments).2) =
      fun pen line => pen.after line.segments := by
    funext pen line
    exact spansFrom_snd pen [] 0 line.segments
  rw [hpen]
  exact afterLines_render (fun t ht => tokens_clean h t (hts.subset ht)) width

/-- A bold example that is cut, a bold line that is filled over several, a synopsis, and a link
whose address holds a bell. -/
def emphaticPage : Text :=
  ".SH SYNOPSIS\n.SY spam\n.OP -s n\n.YS\n.EX\n.B spam and eggs\n.EE\n".toList ++
    ".P\n.B spam spam spam\n.UR a\x07b\n.I ham\n.UE .\n.RS\n".toList

theorem spansFrom_render_emphaticPage :
    esc ∉ emphaticPage ∧ (tokens emphaticPage).take 4 <+: tokens emphaticPage ∧
      ((render .ansi 6 ((tokens emphaticPage).take 4)).piecesAt '\n').foldl
        (fun pen line => (spansFrom pen [] 0 line.segments).2) .initial = .initial := by
  have h : esc ∉ emphaticPage := by decide +kernel
  have hts : (tokens emphaticPage).take 4 <+: tokens emphaticPage := List.take_prefix _ _
  exact ⟨h, hts, spansFrom_render_initial h hts 6⟩

end Man

end TextPager
