import TextPager.Proofs.Man.StyledSynopses

/-!
# A page with and without styles

Styling a page puts escape sequences into it, and layout reads some of them as text. A sequence
between white space is a word; a line of sequences and white space is not blank; a carriage return
before a sequence is not at the end of its line; and the address of a link ends at its first bell.
`Token.InPlace` and `Token.Inset` say of each token that none of this happens. They speak of the
phrases that are laid out, not of lines, and do not depend on the width.

**Results.**
* `token_settles`: styling leaves the lines of a token in place exactly if it is `InPlace`, and its
  lines are blank as seen exactly if it is `Inset`.
* `map_plain_lines`, `steady_of_lines`: styling leaves a run of placed tokens in place at every
  width if every token is in place and those right of a margin are inset, and at the widths 1 and 2
  only if so.
* `plain_renderPage_iff`: the same for the text of a page; `plain_renderPage_widths`: the widths 1
  and 2 tell.
-/
namespace TextPager.Man

open Text (Shows Flat BlankAsSeen ReturnAsSeen)

/-! ## Titles -/

theorem spaces_clean (n : Nat) : madeOf Clean (Text.spaces n) :=
  Text.forall_mem_spaces ⟨by decide, by decide⟩ n

theorem header_clean {t : Title} (h : (Token.title t).Built Clean) (width : Nat) :
    ∀ l ∈ t.header width, madeOf Clean l := by
  have hesc : Admits (· ≠ esc) := admits_ne (by decide)
  have hnewline : Admits (· ≠ '\n') := admits_ne (by decide)
  have hadmits : Admits Clean :=
    ⟨⟨hesc.space, hnewline.space⟩,
      ⟨⟨hesc.parens.1, hnewline.parens.1⟩, ⟨hesc.parens.2, hnewline.parens.2⟩⟩,
      fun c hc => ⟨hesc.letters c hc, hnewline.letters c hc⟩⟩
  exact hadmits.header (Token.forall_family_iff.1 (Token.forall_family_sound h)).1.strings width

/-! ## Tokens -/

namespace Token

/-- Styling leaves the lines of the token in place. -/
def InPlace : Token → Prop
  | heading _ _ contents => ∀ t ∈ contents, t.PartAll WordsShow returnsSeen
  | paragraph contents | indented _ _ contents => ∀ t ∈ contents, t.WordsShow
  | tagged tags _ contents =>
    (∀ t ∈ tags, BlankAsSeen (t.phrase .ansi)) ∧ ∀ t ∈ contents, t.WordsShow
  | link _ address contents _ =>
    spill address = [] ∧ ((prose .ansi contents).WordsShow ∨
      ((prose .plain contents).words = [] ∧
        address = Text.spaces ((prose .ansi contents).words.length - 1)))
  | _ => True

/-- The lines of the token that look blank are blank, with styles too. -/
def Inset : Token → Prop
  | heading _ h contents =>
    BlankAsSeen (Styles.ansi.apply .bold h) ∧ ∀ t ∈ contents, t.PartAll (fun _ => True) blanksSeen
  | verbatim ls => ∀ t ∈ ls, BlankAsSeen ((t.phrase .ansi).truncate 1)
  | synopsis name contents => blanksSeen name contents
  | link kind address contents punctuation =>
    (linkText .plain kind address (prose .plain contents) punctuation).isBlank = false
  | font f t => BlankAsSeen (f.render .ansi t)
  | _ => True

instance : (t : Token) → Decidable t.InPlace
  | heading _ _ contents =>
    inferInstanceAs (Decidable (∀ t ∈ contents, t.PartAll WordsShow returnsSeen))
  | paragraph contents | indented _ _ contents =>
    inferInstanceAs (Decidable (∀ t ∈ contents, t.WordsShow))
  | tagged tags _ contents =>
    inferInstanceAs (Decidable
      ((∀ t ∈ tags, BlankAsSeen (t.phrase .ansi)) ∧ ∀ t ∈ contents, t.WordsShow))
  | link _ address contents _ =>
    inferInstanceAs (Decidable
      (spill address = [] ∧ ((prose .ansi contents).WordsShow ∨
        ((prose .plain contents).words = [] ∧
          address = Text.spaces ((prose .ansi contents).words.length - 1)))))
  | text _ | unknown _ | title _ | verbatim _ | shiftIn _ | shiftOut _ | synopsis .. | option ..
  | font .. => inferInstanceAs (Decidable True)

instance : (t : Token) → Decidable t.Inset
  | heading _ h contents =>
    inferInstanceAs (Decidable
      (BlankAsSeen (Styles.ansi.apply .bold h) ∧
        ∀ t ∈ contents, t.PartAll (fun _ => True) blanksSeen))
  | verbatim ls =>
    inferInstanceAs (Decidable (∀ t ∈ ls, BlankAsSeen ((t.phrase .ansi).truncate 1)))
  | synopsis name contents => inferInstanceAs (Decidable (blanksSeen name contents))
  | link kind address contents punctuation =>
    inferInstanceAs (Decidable
      ((linkText .plain kind address (prose .plain contents) punctuation).isBlank = false))
  | font f t => inferInstanceAs (Decidable (BlankAsSeen (f.render .ansi t)))
  | text _ | unknown _ | title _ | paragraph _ | indented .. | tagged .. | shiftIn _ | shiftOut _
  | option .. => inferInstanceAs (Decidable True)

end Token

/-- A heading line, and the section under it. -/
theorem heading_settles {h : Text} {contents : List Token} (hh : madeOf Clean h)
    (hc : ∀ t ∈ contents, t.Part Clean) (rank : HeadingRank) (indent : Nat) :
    Settles (fun s n => (Token.heading rank h contents).layout s n indent)
      (Token.heading rank h contents).InPlace (Token.heading rank h contents).Inset := by
  have hspaces := shows_self (spaces_clean rank.lead)
  have hline : ∀ {s : Styles}, s.Tidy → Shows (Text.spaces rank.lead ++ s.apply .bold h)
      (Text.spaces rank.lead ++ Styles.plain.apply .bold h) := by
    intro s hs
    rw [Styles.plain_apply]
    exact hspaces.append (apply_shows hs .bold (shows_self hh))
  have hsettles := (Settles.shown (fun s => Text.spaces rank.lead ++ s.apply .bold h)
    (hline ansi_tidy) (hline plain_tidy)).append ((section_settles hc).narrow sectionIndent)
  have hlayout : (fun s n => (Token.heading rank h contents).layout s n indent) = fun s n =>
      [Text.spaces rank.lead ++ s.apply .bold h] ++
        sectionLines s contents (max (n - sectionIndent) 1) [] := by
    funext s n
    simp [Token.layout]
  rw [hlayout]
  exact hsettles.congr (by simp [Token.InPlace])
    fun _ => and_congr_left' Text.blankAsSeen_spaces_append

theorem link_settles {kind : LinkKind} {address : Text} {contents : List Token} {punctuation : Text}
    (ha : madeOf Clean address) (hc : ∀ t ∈ contents, t.Inline Clean)
    (hp : madeOf Clean punctuation) (indent : Nat) :
    Settles (fun s n => (Token.link kind address contents punctuation).layout s n indent)
      (Token.link kind address contents punctuation).InPlace
      (Token.link kind address contents punctuation).Inset := by
  have hlayout : (fun s n => (Token.link kind address contents punctuation).layout s n indent) =
      fun s _ => [linkText s kind address (prose s contents) punctuation] := by
    funext s n
    simp [Token.layout, phrases_eq hc, prose]
  have hshows := prose_shows ansi_tidy hc
  have hplain := prose_shows plain_tidy hc
  have hflat : Flat (linkText .plain kind address (prose .plain contents) punctuation) :=
    (linkShown_flat ha hplain.neat).append (shows_self hp).flat
  have hiff := plain_linkText_iff kind ha hshows.neat hp
  rw [hshows.plain] at hiff
  rw [hlayout]
  refine (Settles.single (fun s => linkText s kind address (prose s contents) punctuation)
    (linkText_ansi kind ha hshows.neat hp).1 hflat).congr hiff fun hin => ?_
  -- A link with styles begins with an escape sequence, so it is never blank.
  have hesc : esc ∈ linkText .ansi kind address (prose .ansi contents) punctuation := by
    rw [linkText_eq]
    unfold linkStart
    simp [esc]
  have hnot : (linkText .ansi kind address (prose .ansi contents) punctuation).isBlank = false :=
    Bool.eq_false_iff.2 fun hb => Text.not_mem_of_isBlank hb hesc
  simp [BlankAsSeen, hin, hnot, Token.Inset]

/-- The same phrase in every style. -/
theorem forall₂_shows_self {ts : List Text} (h : ∀ t ∈ ts, madeOf Clean t) :
    List.Forall₂ Shows ts ts := List.forall₂_same.2 fun t ht => shows_self (h t ht)

/-- Styling leaves the lines of a token in place exactly if it is `InPlace`; then its lines are
blank as seen exactly if it is `Inset`. -/
theorem token_settles {t : Token} (h : t.Built Clean) (indent : Nat) :
    Settles (fun s n => t.layout s n indent) t.InPlace t.Inset := by
  have hsame : ∀ {f : Setting} {p q : Prop}, Settles f p q → (∀ s n, t.layout s n indent = f s n) →
      Settles (fun s n => t.layout s n indent) p q := by
    intro f p q hf hl
    have hlayout : (fun s n => t.layout s n indent) = f := by
      funext s n
      exact hl s n
    rwa [hlayout]
  have hunstyled : ∀ {f : Nat → List Text}, (∀ n, ∀ l ∈ f n, madeOf Clean l) →
      Settles (fun _ n => f n) True True := fun hf =>
    .unstyled fun n l hl => ⟨not_mem_esc (hf n l hl), not_mem_newline (hf n l hl)⟩
  cases t with
  | text l | unknown l =>
    exact hsame (hunstyled fun _ => List.forall_mem_singleton.2 h) fun s n => by simp [Token.layout]
  | title t => exact hsame (hunstyled (header_clean h)) fun s n => by simp [Token.layout]
  | shiftIn | shiftOut => exact hsame .nil fun s n => by simp [Token.layout]
  | heading rank h' contents => exact heading_settles h.1 h.2 rank indent
  | paragraph contents =>
    refine hsame ((paragraph_settles (fun _ => []) defaultIndent (fun _ => .nil) h).congr
      (by simp [Token.InPlace]) fun _ => Iff.rfl) fun s n => ?_
    simp [Token.layout, phrases_eq h, prose]
  | indented tag i contents =>
    have htag : ∀ t ∈ tag.toList, madeOf Clean t := fun t ht => h.1 t (Option.mem_toList.1 ht)
    have hseen : ∀ t ∈ tag.toList, BlankAsSeen t := fun t ht =>
      Text.blankAsSeen_of_not_mem (not_mem_esc (htag t ht))
    refine hsame ((paragraph_settles (fun _ => tag.toList) (i.getD indent)
      (fun _ => forall₂_shows_self htag) h.2).congr (and_iff_right hseen) fun _ => Iff.rfl)
      fun s n => ?_
    simp [Token.layout, phrases_eq h.2, prose]
  | tagged tags i contents =>
    refine hsame ((paragraph_settles (fun s => tags.map (Token.phrase s)) (i.getD indent)
      (fun hs => phrases_shows hs fun t ht => (h.2.1 t ht).unit) h.2.2).congr
      (by simp [Token.InPlace]) fun _ => Iff.rfl) fun s n => ?_
    simp [Token.layout, phrases_eq h.2.1, phrases_eq h.2.2, prose]
  | verbatim ls =>
    exact hsame (verbatim_settles h) fun s n => by simp [Token.layout, phrases_eq h]
  | synopsis name contents =>
    refine hsame (synopsis_settles h.1 h.2) ?_
    intro s n
    simpa [Token.layout, synopsisSetting] using synopsisLines_eq h.2 s n name []
  | option name argument =>
    have hshows : ∀ {s : Styles}, s.Tidy →
        Shows (optionText s name argument) (optionText .plain name argument) := fun hs =>
      optionText_shows hs h.1 h.2
    have hbracket : (optionText .plain name argument).isBlank = false := by
      cases argument <;> rfl
    refine hsame ((Settles.shown (fun s => optionText s name argument) (hshows ansi_tidy)
      (hshows plain_tidy)).congr Iff.rfl fun _ => ?_) fun s n => by simp [Token.layout]
    refine iff_true_intro (Text.blankAsSeen_of_not_isBlank ?_)
    rw [(hshows ansi_tidy).plain]
    exact hbracket
  | link kind address contents punctuation => exact link_settles h.1 h.2.1 h.2.2 indent
  | font f t =>
    have hshows : ∀ {s : Styles}, s.Tidy → Shows (f.render s t) (f.render .plain t) := fun hs => by
      rw [render_plain]
      exact render_shows hs f h
    exact hsame (Settles.shown (fun s => f.render s t) (hshows ansi_tidy) (hshows plain_tidy))
      fun s n => by simp [Token.layout]

/-! ## Placed tokens -/

theorem putMargin_zero (l : Text) : putMargin 0 l = l := by
  unfold putMargin
  split <;> rfl

/-- A margin is put before a line as it is before its plain form, exactly if the line is blank as
seen. -/
theorem plain_putMargin_iff {margin : Nat} (hm : 0 < margin) (l : Text) :
    (putMargin margin l).plain = putMargin margin l.plain ↔ BlankAsSeen l := by
  unfold putMargin BlankAsSeen
  cases hb : l.isBlank with
  | true => simp [Text.isBlank_plain hb]
  | false =>
    have hne : Text.spaces margin ++ l.plain ≠ l.plain := by
      intro he
      have := congrArg List.length he
      simp [Text.spaces] at this
      omega
    cases hp : l.plain.isBlank <;> simp [Text.plain_spaces_append, hne]

theorem putMargin_flat {margin : Nat} {l : Text} (h : Flat l) : Flat (putMargin margin l) := by
  unfold putMargin
  split
  · exact h
  · exact (Text.flat_spaces margin).append h

namespace Placed

variable {p : Placed}

/-- Styling leaves the token in place where it stands. -/
def Steady (p : Placed) : Prop := p.token.InPlace ∧ (0 < p.margin → p.token.Inset)

instance (p : Placed) : Decidable p.Steady :=
  inferInstanceAs (Decidable (p.token.InPlace ∧ (0 < p.margin → p.token.Inset)))

/-- The blank line after a block that sets any line. -/
def gap (s : Styles) (width : Nat) (p : Placed) : List Text :=
  if p.token.isBlock && !(p.inner s width).isEmpty then [[]] else []

theorem inner_flat (h : p.token.Built Clean) (width : Nat) :
    (∀ l ∈ p.inner .ansi width, Flat l) ∧ ∀ l ∈ p.inner .plain width, Flat l :=
  (token_settles h p.indent).flat _

theorem lines_eq (h : p.token.Built Clean) (width : Nat) :
    p.lines .ansi width =
        (p.inner .ansi width).map (putMargin (p.edge width)) ++ p.gap .ansi width ∧
      p.lines .plain width =
        (p.inner .plain width).map (putMargin (p.edge width)) ++ p.gap .plain width := by
  obtain ⟨h1, h2⟩ := inner_flat h width
  rw [lines, lines, marginLines_eq fun l hl => (h1 l hl).newline,
    marginLines_eq fun l hl => (h2 l hl).newline]
  exact ⟨rfl, rfl⟩

theorem lines_flat (h : p.token.Built Clean) (width : Nat) :
    (∀ l ∈ p.lines .ansi width, Flat l) ∧ ∀ l ∈ p.lines .plain width, Flat l := by
  obtain ⟨h1, h2⟩ := inner_flat h width
  have hgap : ∀ s : Styles, ∀ l ∈ p.gap s width, Flat l := by
    intro s l hl
    unfold gap at hl
    split at hl
    · rw [List.mem_singleton.1 hl]
      exact Text.flat_nil
    · cases hl
  have hput : ∀ ls : List Text, (∀ l ∈ ls, Flat l) →
      ∀ l ∈ ls.map (putMargin (p.edge width)), Flat l := by
    intro ls hls l hl
    obtain ⟨m, hm, rfl⟩ := List.mem_map.1 hl
    exact putMargin_flat (hls m hm)
  obtain ⟨e1, e2⟩ := lines_eq h width
  rw [e1, e2]
  exact ⟨List.forall_mem_append.2 ⟨hput _ h1, hgap _⟩, List.forall_mem_append.2 ⟨hput _ h2, hgap _⟩⟩

theorem length_gap (s : Styles) (width : Nat) :
    (p.gap s width).length = min p.token.isBlock.toNat (p.inner s width).length := by
  unfold gap
  cases p.inner s width <;> cases p.token.isBlock <;> simp

/-- With as many lines inside, a block is followed by as many. -/
theorem map_plain_gap {width : Nat}
    (h : (p.inner .ansi width).length = (p.inner .plain width).length) :
    (p.gap .ansi width).map Text.plain = p.gap .plain width := by
  have hempty : (p.inner .ansi width).isEmpty = (p.inner .plain width).isEmpty := by
    rw [Bool.eq_iff_iff, List.isEmpty_iff_length_eq_zero, List.isEmpty_iff_length_eq_zero, h]
  rw [gap, gap, hempty]
  split <;> rfl

theorem columns_pos (p : Placed) {width : Nat} (hw : 0 < width) : 0 < width - p.edge width := by
  unfold edge
  omega

/-- The lines of a token in place stay right of its margin, and as many. -/
theorem map_plain_inner (h : p.token.Built Clean) (hp : p.token.InPlace) {width : Nat}
    (hw : 0 < width) :
    (p.inner .ansi width).map Text.plain = p.inner .plain width ∧
      (p.gap .ansi width).map Text.plain = p.gap .plain width := by
  have hinner : (p.inner .ansi width).map Text.plain = p.inner .plain width :=
    (token_settles h p.indent).plain_eq hp _ (p.columns_pos hw)
  have hlen := congrArg List.length hinner
  rw [List.length_map] at hlen
  exact ⟨hinner, map_plain_gap hlen⟩

theorem length_lines (h : p.token.Built Clean) (hp : p.token.InPlace) {width : Nat}
    (hw : 0 < width) : (p.lines .plain width).length = (p.lines .ansi width).length := by
  obtain ⟨h1, h2⟩ := map_plain_inner h hp hw
  obtain ⟨e1, e2⟩ := lines_eq h width
  rw [e1, e2, ← h1, ← h2]
  simp

/-- The lines of a steady token stay in place at every width. -/
theorem Steady.lines (h : p.token.Built Clean) (hp : p.Steady) {width : Nat} (hw : 0 < width) :
    (p.lines .ansi width).map Text.plain = p.lines .plain width := by
  obtain ⟨hinner, hgap⟩ := map_plain_inner h hp.1 hw
  have hput : ∀ l ∈ p.inner .ansi width,
      (putMargin (p.edge width) l).plain = putMargin (p.edge width) l.plain := by
    intro l hl
    rcases Nat.eq_zero_or_pos (p.edge width) with h0 | hpos
    · rw [h0, putMargin_zero, putMargin_zero]
    · have hmargin : 0 < p.margin := by
        unfold edge at hpos
        omega
      have hblank := (token_settles h p.indent).blank hp.1 (hp.2 hmargin) _ (p.columns_pos hw)
      exact (plain_putMargin_iff hpos l).2 (hblank l hl)
  obtain ⟨e1, e2⟩ := lines_eq h width
  rw [e1, e2, List.map_append, hgap, ← hinner, List.map_map, List.map_map]
  congr 1
  exact List.map_congr_left hput

theorem edge_one (p : Placed) : p.edge 1 = 0 := Nat.min_zero _

/-- In one column a token is set at the edge. -/
theorem inner_one (s : Styles) : p.inner s 1 = p.token.layout s 1 p.indent := by
  rw [inner, edge_one]

theorem lines_one (h : p.token.Built Clean) :
    p.lines .ansi 1 = p.inner .ansi 1 ++ p.gap .ansi 1 ∧
      p.lines .plain 1 = p.inner .plain 1 ++ p.gap .plain 1 := by
  obtain ⟨e1, e2⟩ := lines_eq h 1
  have hput : putMargin 0 = id := funext putMargin_zero
  rw [edge_one, hput, List.map_id] at e1 e2
  exact ⟨e1, e2⟩

/-- In one column a token never has fewer lines for being styled. -/
theorem length_lines_one_le (h : p.token.Built Clean) :
    (p.lines .plain 1).length ≤ (p.lines .ansi 1).length := by
  obtain ⟨e1, e2⟩ := lines_one h
  have hle := (token_settles h p.indent).le
  rw [← inner_one, ← inner_one] at hle
  rw [e1, e2, List.length_append, List.length_append, length_gap, length_gap]
  omega

/-- Lines that stay in one column show that the token is in place. -/
theorem inPlace_of_lines_one (h : p.token.Built Clean)
    (he : (p.lines .ansi 1).map Text.plain = p.lines .plain 1) : p.token.InPlace := by
  have ht := token_settles h p.indent
  have hle := ht.le
  rw [← inner_one, ← inner_one] at hle
  obtain ⟨e1, e2⟩ := lines_one h
  rw [e1, e2, List.map_append] at he
  have hcount := congrArg List.length he
  simp only [List.length_append, List.length_map, length_gap] at hcount
  have hlen : (p.inner .ansi 1).length = (p.inner .plain 1).length := by omega
  have hinner := (List.append_inj he (by rw [List.length_map, hlen])).1
  rw [inner_one, inner_one] at hinner
  exact ht.of_plain_eq hinner

/-- Lines that stay in two columns, of which the margin takes one, show that the token is inset. -/
theorem inset_of_lines_two (h : p.token.Built Clean) (hp : p.token.InPlace) (hm : 0 < p.margin)
    (he : (p.lines .ansi 2).map Text.plain = p.lines .plain 2) : p.token.Inset := by
  have ht := token_settles h p.indent
  have hedge : p.edge 2 = 1 := by
    unfold edge
    omega
  have hone : ∀ s : Styles, p.inner s 2 = p.token.layout s 1 p.indent := by
    intro s
    rw [inner, hedge]
  obtain ⟨hinner, hgap⟩ := map_plain_inner h hp (by decide : 0 < 2)
  obtain ⟨e1, e2⟩ := lines_eq h 2
  rw [e1, e2, List.map_append, hgap, hedge, ← hinner, List.map_map, List.map_map] at he
  have hput := List.map_inj_left.1 (List.append_cancel_right he)
  refine ht.of_blank hp ?_
  intro l hl
  rw [← hone] at hl
  exact (plain_putMargin_iff (by decide) l).1 (hput l hl)

end Placed

/-- Lists that are not shorter make the same whole only if they are the same. -/
theorem eq_of_flatMap_eq {α β : Type} {f g : α → List β} {xs : List α}
    (hle : ∀ x ∈ xs, (g x).length ≤ (f x).length) (h : xs.flatMap f = xs.flatMap g) :
    ∀ x ∈ xs, f x = g x := by
  have hsum : ∀ ys : List α, (∀ x ∈ ys, (g x).length ≤ (f x).length) →
      (ys.flatMap g).length ≤ (ys.flatMap f).length := by
    intro ys hys
    induction ys with
    | nil => simp
    | cons y ys ih =>
      obtain ⟨hy, hys⟩ := List.forall_mem_cons.1 hys
      have := ih hys
      simp only [List.flatMap_cons, List.length_append]
      omega
  induction xs with
  | nil => simp
  | cons x xs ih =>
    obtain ⟨hx, hxs⟩ := List.forall_mem_cons.1 hle
    have hlen := congrArg List.length h
    have := hsum xs hxs
    simp only [List.flatMap_cons, List.length_append] at h hlen
    obtain ⟨h1, h2⟩ := List.append_inj h (by omega)
    exact List.forall_mem_cons.2 ⟨h1, ih hxs h2⟩

/-- Steady tokens stay in place at every width. -/
theorem map_plain_lines {ps : List Placed} (h : ∀ p ∈ ps, p.token.Built Clean)
    (hs : ∀ p ∈ ps, p.Steady) {width : Nat} (hw : 0 < width) :
    (ps.flatMap (Placed.lines .ansi width)).map Text.plain =
      ps.flatMap (Placed.lines .plain width) := by
  rw [List.map_flatMap]
  exact List.flatMap_congr fun p hp => (hs p hp).lines (h p hp) hw

/-- Tokens that stay in place in one column and in two are steady. -/
theorem steady_of_lines {ps : List Placed} (h : ∀ p ∈ ps, p.token.Built Clean)
    (h1 : (ps.flatMap (Placed.lines .ansi 1)).map Text.plain = ps.flatMap (Placed.lines .plain 1))
    (h2 : (ps.flatMap (Placed.lines .ansi 2)).map Text.plain = ps.flatMap (Placed.lines .plain 2)) :
    ∀ p ∈ ps, p.Steady := by
  rw [List.map_flatMap] at h1 h2
  have hone := eq_of_flatMap_eq (fun p hp => by
    rw [List.length_map]
    exact Placed.length_lines_one_le (h p hp)) h1
  have hin : ∀ p ∈ ps, p.token.InPlace := fun p hp =>
    Placed.inPlace_of_lines_one (h p hp) (hone p hp)
  have htwo := eq_of_flatMap_eq (fun p hp => by
    rw [List.length_map]
    exact Nat.le_of_eq (Placed.length_lines (h p hp) (hin p hp) (by decide))) h2
  exact fun p hp => ⟨hin p hp, fun hm =>
    Placed.inset_of_lines_two (h p hp) (hin p hp) hm (htwo p hp)⟩

/-! ## The page -/

theorem plain_ended {ls : List Text} (h : ∀ l ∈ ls, Flat l) :
    (Text.ended ls).Terminated ∧ (Text.ended ls).plain = Text.ended (ls.map Text.plain) := by
  induction ls with
  | nil => exact ⟨rfl, rfl⟩
  | cons l ls ih =>
    obtain ⟨hl, hls⟩ := List.forall_mem_cons.1 h
    obtain ⟨h1, h2⟩ := ih hls
    rw [Text.ended_cons, Text.plain_append hl.terminated, Text.plain_cons_space (by decide), h2,
      List.map_cons, Text.ended_cons]
    exact ⟨hl.terminated.append h1, rfl⟩

/-- The foot of a page is not styled. -/
theorem esc_not_mem_footText {ts : List Token} (h : ∀ t ∈ ts, t.Built Clean) (width : Nat) :
    esc ∉ footText ts width := by
  have hstrings : ∀ t ∈ ts, t.MadeOf (· ≠ esc) := by
    intro t ht x hx c hc
    have hsound := Token.forall_family_iff.1 (Token.forall_family_sound (h t ht))
    exact (hsound.1.strings x hx c hc).1
  exact fun he => madeOf_footText (admits_ne (by decide)) (by decide) hstrings width esc he rfl

/-- The text of a page stays in place exactly if its lines do. -/
theorem plain_render_iff {ts : List Token} (h : ∀ t ∈ ts, t.Built Clean) (width : Nat) :
    (render .ansi width ts).plain = render .plain width ts ↔
      ((placed 0 defaultIndent ts).flatMap (Placed.lines .ansi (max width 1))).map Text.plain =
        (placed 0 defaultIndent ts).flatMap (Placed.lines .plain (max width 1)) := by
  have hflat : (∀ l ∈ (placed 0 defaultIndent ts).flatMap (Placed.lines .ansi (max width 1)),
      Flat l) ∧
      ∀ l ∈ (placed 0 defaultIndent ts).flatMap (Placed.lines .plain (max width 1)), Flat l := by
    constructor
    · intro l hl
      obtain ⟨p, hp, hl⟩ := List.mem_flatMap.1 hl
      exact (Placed.lines_flat (h _ (mem_placed hp)) _).1 l hl
    · intro l hl
      obtain ⟨p, hp, hl⟩ := List.mem_flatMap.1 hl
      exact (Placed.lines_flat (h _ (mem_placed hp)) _).2 l hl
  obtain ⟨hansi, hplain⟩ := hflat
  obtain ⟨h1, h2⟩ := plain_ended hansi
  rw [render, render, renderFrom_eq, renderFrom_eq, Text.plain_append h1, h2,
    Text.plain_of_not_mem (esc_not_mem_footText h _), List.append_left_inj]
  refine ⟨fun he => ended_inj ?_ (fun l hl => (hplain l hl).newline) he, fun he => by rw [he]⟩
  intro l hl
  obtain ⟨m, hm, rfl⟩ := List.mem_map.1 hl
  exact fun hn => (hansi m hm).newline (Text.mem_plain hn).1

/-- The tokens of a page without escape characters are clean. -/
theorem tokens_clean {page : Text} (h : esc ∉ page) : ∀ t ∈ tokens page, t.Built Clean := by
  refine tokens_built ⟨by decide, by decide⟩ ?_
  intro line hl c hc
  obtain ⟨hmem, hnewline⟩ := mem_lines hl hc
  exact ⟨fun he => h (he ▸ hmem), hnewline⟩

theorem renderPage_of_steady {page : Text} (h : esc ∉ page)
    (hs : ∀ p ∈ placed 0 defaultIndent (tokens page), p.Steady) (width : Nat) :
    (renderPage .ansi width page).plain = renderPage .plain width page := by
  have hclean := tokens_clean h
  exact (plain_render_iff hclean width).2
    (map_plain_lines (fun p hp => hclean _ (mem_placed hp)) hs (by omega))

theorem steady_of_renderPage {page : Text} (h : esc ∉ page)
    (h1 : (renderPage .ansi 1 page).plain = renderPage .plain 1 page)
    (h2 : (renderPage .ansi 2 page).plain = renderPage .plain 2 page) :
    ∀ p ∈ placed 0 defaultIndent (tokens page), p.Steady := by
  have hclean := tokens_clean h
  exact steady_of_lines (fun p hp => hclean _ (mem_placed hp)) ((plain_render_iff hclean 1).1 h1)
    ((plain_render_iff hclean 2).1 h2)

/-- Whether styling moves anything on a page shows at one column and at two. -/
theorem plain_renderPage_widths {page : Text} (h : esc ∉ page) :
    (∀ width, (renderPage .ansi width page).plain = renderPage .plain width page) ↔
      (renderPage .ansi 1 page).plain = renderPage .plain 1 page ∧
        (renderPage .ansi 2 page).plain = renderPage .plain 2 page :=
  ⟨fun he => ⟨he 1, he 2⟩, fun ⟨h1, h2⟩ => renderPage_of_steady h (steady_of_renderPage h h1 h2)⟩

/-- **When styling does not change layout.** Deleting the escape sequences of a page with styles
gives the page without, at every width, exactly if every token is steady where it stands: words,
blank lines and line ends of what is laid out are as they are seen, and no address spills. -/
theorem plain_renderPage_iff {page : Text} (h : esc ∉ page) :
    (∀ width, (renderPage .ansi width page).plain = renderPage .plain width page) ↔
      ∀ p ∈ placed 0 defaultIndent (tokens page), p.Steady :=
  ⟨fun he => steady_of_renderPage h (he 1) (he 2), fun hs => renderPage_of_steady h hs⟩

/-- A section with a synopsis, a tagged paragraph right of a margin, and a link. -/
def steadyPage : Text :=
  ".SH NAME\nspam\n.SY spam\n.OP -s n\n.YS\n".toList ++
    ".RS\n.TP\n.B -s\nham \n.I eggs\n.UR x.org\n.UE .\n".toList

theorem plain_renderPage_steadyPage :
    esc ∉ steadyPage ∧
      ∀ width, (renderPage .ansi width steadyPage).plain = renderPage .plain width steadyPage := by
  have h : esc ∉ steadyPage := by decide +kernel
  exact ⟨h, (plain_renderPage_iff h).2 (by decide +kernel)⟩

/-- A page whose bold text begins with a space. -/
def spacedPage : Text := ".P\nx\n.B \" a\"\n".toList

/-- The sequence before the space is a word of its own, and takes a space of its own. -/
theorem plain_renderPage_spacedPage :
    esc ∉ spacedPage ∧
      (renderPage .ansi 20 spacedPage).plain ≠ renderPage .plain 20 spacedPage := by
  decide +kernel

end TextPager.Man
