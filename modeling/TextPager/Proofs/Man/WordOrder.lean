import TextPager.Proofs.Man.Depth
import TextPager.Proofs.Man.PageLines
import TextPager.Proofs.Man.Phrases
import TextPager.Proofs.Text.Filling

/-!
# Layout keeps the words

`Token.spoken` reads a token aloud: the words of its own text in rendering order, with no regard
to lines, margins or widths. Laid out without styles, at any width, a run of tokens shows exactly
the words it speaks. Titles are set apart, since their fields stand twice and in upper case, and
so are lines kept as they stand, since these are cut at the edge of the page.

**Results.**
* `words_layout`, `words_phrases`, `words_sectionLines`, `words_synopsisLines`: the words of one
  token, by induction on the tree with one case for each token.
* `words_placed_lines`: margins and blank lines add no words.
* `words_render`: the words of the page are the words its tokens speak.
-/
namespace TextPager.Man

/-- The words a link shows: those of its contents, or the address if there are none, and directly
behind them the punctuation. -/
def linkWords (contents : List Text) (address punctuation : Text) : List Text :=
  Text.words ((if contents.isEmpty then address else Text.joinWords contents) ++ punctuation)

/-- The words an option shows, with its brackets. -/
def optionWords (name : Text) : Option Text → List Text
  | some a => Text.words (['['] ++ name ++ [' '] ++ a ++ [']'])
  | none => Text.words (['['] ++ name ++ [']'])

mutual

/-- The words of a token's own text, in rendering order. -/
def Token.spoken : Token → List Text
  | .text line => line.words
  | .unknown line => line.words
  | .title _ => []
  | .heading _ h contents => h.words ++ spokenBy contents
  | .paragraph contents => spokenBy contents
  | .indented tag _ contents => (tag.getD []).words ++ spokenBy contents
  | .tagged tags _ contents => spokenBy tags ++ spokenBy contents
  | .verbatim lines => spokenBy lines
  | .shiftIn _ => []
  | .shiftOut _ => []
  | .synopsis command contents => command.words ++ spokenBy contents
  | .option name argument => optionWords name argument
  | .link _ address contents punctuation => linkWords (spokenBy contents) address punctuation
  | .font _ t => t.words

/-- The words of a run of tokens. -/
def spokenBy : List Token → List Text
  | [] => []
  | t :: ts => t.spoken ++ spokenBy ts

end

/-- Neither a title nor lines kept as they stand. -/
def Token.flows : Token → Bool
  | .title _ | .verbatim _ => false
  | _ => true

/-! ## The pieces a token is set from -/

theorem words_indentLines (n : Nat) (ls : List Text) :
    (indentLines n ls).flatMap Text.words = ls.flatMap Text.words := by
  simp [indentLines, List.flatMap_map]

theorem words_tagLines (tags body : List Text) (indent : Nat) :
    (tagLines tags body indent).flatMap Text.words =
      tags.flatMap Text.words ++ body.flatMap Text.words := by
  unfold tagLines
  cases hl : tags.getLast? with
  | none =>
    rw [List.getLast?_eq_none_iff.1 hl]
    exact words_indentLines indent body
  | some last =>
    obtain ⟨init, rfl⟩ := List.getLast?_eq_some_iff.1 hl
    cases body with
    | nil => simp
    | cons first rest =>
      by_cases hw : last.width < indent
      · have hp : (last.pad indent ++ first).words = last.words ++ first.words :=
          Text.words_append_spaces_append last first (by omega)
        simp [hw, hp, words_indentLines]
      · have hi := words_indentLines indent (first :: rest)
        simp only [hw, if_false, List.dropLast_concat, List.flatMap_append, List.flatMap_cons, hi]
        simp

theorem words_paragraphLines (tags : List Text) (body : Text) (width indent : Nat) :
    (paragraphLines tags body width indent).flatMap Text.words =
      tags.flatMap Text.words ++ body.words := by
  rw [paragraphLines, words_tagLines, Text.flatMap_words_filter_isBlank, Text.words_wrap]

theorem words_commandLines (command : Text) (units : List Text) (width : Nat) :
    (commandLines .plain command units width).flatMap Text.words =
      command.words ++ units.flatMap Text.words := by
  have hf := Text.words_fill (command :: units) 0 width (width - (command.width + 1))
  rw [commandLines, Styles.plain_apply, Text.fillHanging]
  split
  · rename_i h
    rw [h] at hf
    exact hf
  · rename_i first rest h
    rw [h] at hf
    rw [List.flatMap_cons, words_indentLines]
    exact hf

theorem words_inText (t : Token) (ls : List Text) :
    (t.inText ls).words = ls.flatMap Text.words := by
  unfold Token.inText
  split
  · exact Text.words_joinLines ls
  · rw [Text.words_dropEndWhile (fun c hc => by rw [beq_iff_eq.1 hc]; decide), Text.words_ended]

theorem words_linkText (kind : LinkKind) (address contents punctuation : Text) :
    (linkText .plain kind address contents punctuation).words =
      linkWords contents.words address punctuation := by
  have h : (Text.joinWords contents.words).isEmpty = contents.words.isEmpty :=
    Text.isEmpty_joinWords fun w hw => (Text.mem_words hw).1
  rw [linkText, Styles.plain_hyperlink, linkWords]
  simp only [h]

/-! ## Tokens, by induction on the tree -/

theorem flows_of_family {t : Token} (h : ∀ u ∈ t.family, u.flows = true) :
    t.flows = true ∧ ∀ u ∈ families t.children, u.flows = true := by
  rw [t.family_eq] at h
  exact ⟨h t List.mem_cons_self, fun u hu => h u (List.mem_cons_of_mem _ hu)⟩

theorem flows_of_families_cons {t : Token} {ts : List Token}
    (h : ∀ u ∈ families (t :: ts), u.flows = true) :
    (∀ u ∈ t.family, u.flows = true) ∧ ∀ u ∈ families ts, u.flows = true := by
  rw [families_cons] at h
  exact ⟨fun u hu => h u (List.mem_append_left _ hu), fun u hu => h u (List.mem_append_right _ hu)⟩

mutual

/-- The lines of a token show the words it speaks. -/
theorem words_layout : ∀ (t : Token), (∀ u ∈ t.family, u.flows = true) → ∀ width indent,
    (t.layout .plain width indent).flatMap Text.words = t.spoken
  | .text line, _, width, indent => by simp [Token.layout, Token.spoken]
  | .unknown line, _, width, indent => by simp [Token.layout, Token.spoken]
  | .title t, h, width, indent => by
    have := (flows_of_family h).1
    simp [Token.flows] at this
  | .heading rank heading contents, h, width, indent => by
    have hs := words_sectionLines contents (flows_of_family h).2 (max (width - sectionIndent) 1) []
    simp [Token.layout, Token.spoken, Styles.plain_apply, hs]
  | .paragraph contents, h, width, indent => by
    have hp := words_phrases contents (flows_of_family h).2 width
    simp [Token.layout, Token.spoken, words_paragraphLines, Text.words_joinWords, hp]
  | .indented tag i contents, h, width, indent => by
    have hp := words_phrases contents (flows_of_family h).2 width
    have ht : tag.toList.flatMap Text.words = (tag.getD []).words := by cases tag <;> simp
    simp [Token.layout, Token.spoken, words_paragraphLines, Text.words_joinWords, hp, ht]
  | .tagged tags i contents, h, width, indent => by
    have hc : ∀ u ∈ families tags ++ families contents, u.flows = true := by
      simpa [Token.children] using (flows_of_family h).2
    have ht := words_phrases tags (fun u hu => hc u (List.mem_append_left _ hu)) width
    have hp := words_phrases contents (fun u hu => hc u (List.mem_append_right _ hu)) width
    simp [Token.layout, Token.spoken, words_paragraphLines, Text.words_joinWords, hp, ht]
  | .verbatim ls, h, width, indent => by
    have := (flows_of_family h).1
    simp [Token.flows] at this
  | .shiftIn _, _, _, _ => by simp [Token.layout, Token.spoken]
  | .shiftOut _, _, _, _ => by simp [Token.layout, Token.spoken]
  | .synopsis command contents, h, width, indent => by
    have hs := words_synopsisLines contents (flows_of_family h).2 width command []
    simpa [Token.layout, Token.spoken] using hs
  | .option name argument, _, width, indent => by
    cases argument <;>
      simp [Token.layout, Token.spoken, optionText, optionWords, Styles.plain_apply]
  | .link kind address contents punctuation, h, width, indent => by
    have hp := words_phrases contents (flows_of_family h).2 width
    simp [Token.layout, Token.spoken, words_linkText, Text.words_joinWords, hp]
  | .font f t, _, width, indent => by simp [Token.layout, Token.spoken, render_plain]

/-- Running text has the words of its tokens. -/
theorem words_phrases : ∀ (ts : List Token), (∀ u ∈ families ts, u.flows = true) → ∀ width,
    (phrases .plain ts width).flatMap Text.words = spokenBy ts
  | [], _, width => by simp [phrases, spokenBy]
  | t :: ts, h, width => by
    obtain ⟨ht, hts⟩ := flows_of_families_cons h
    simp [phrases, spokenBy, words_inText, words_layout t ht, words_phrases ts hts]

/-- The body of a section has the words that wait and those of its tokens. -/
theorem words_sectionLines : ∀ (ts : List Token), (∀ u ∈ families ts, u.flows = true) →
    ∀ width prose, (sectionLines .plain ts width prose).flatMap Text.words =
      prose.flatMap Text.words ++ spokenBy ts
  | [], _, width, prose => by
    simp [sectionLines, spokenBy, words_indentLines, Text.words_wrap, Text.words_joinWords]
  | t :: ts, h, width, prose => by
    obtain ⟨ht, hts⟩ := flows_of_families_cons h
    have hl := words_layout t ht width defaultIndent
    rw [sectionLines]
    split
    · simp [words_sectionLines ts hts, words_indentLines, Text.words_wrap, Text.words_joinWords,
        Text.flatMap_words_lines, Text.words_ended, hl, spokenBy]
    · simp [words_sectionLines ts hts, words_inText, hl, spokenBy]

/-- A synopsis has the words of the command in progress, of its units, and of what follows. -/
theorem words_synopsisLines : ∀ (ts : List Token), (∀ u ∈ families ts, u.flows = true) →
    ∀ width command units, (synopsisLines .plain ts width command units).flatMap Text.words =
      command.words ++ units.flatMap Text.words ++ spokenBy ts
  | [], _, width, command, units => by
    simp [synopsisLines, spokenBy, words_commandLines]
  | t :: ts, h, width, command, units => by
    obtain ⟨ht, hts⟩ := flows_of_families_cons h
    have hl := words_layout t ht width defaultIndent
    cases t with
    | synopsis next contents =>
      have hp := words_phrases contents (flows_of_family ht).2 width
      simp [synopsisLines, words_synopsisLines ts hts, words_commandLines, hp, spokenBy,
        Token.spoken]
    | _ => simp [synopsisLines, words_synopsisLines ts hts, words_inText, hl, spokenBy]

end

/-! ## The page -/

theorem words_marginLines (margin : Nat) (ls : List Text) :
    (marginLines margin ls).flatMap Text.words = ls.flatMap Text.words := by
  have hput : ∀ l, (putMargin margin l).words = l.words := by
    intro l
    unfold putMargin
    split
    · rfl
    · exact Text.words_spaces_append margin l
  rw [marginLines, List.flatMap_map]
  simp only [hput]
  rw [List.flatMap_assoc]
  simp only [Text.flatMap_words_piecesAt_newline]

theorem words_placed_lines {p : Placed} (h : ∀ u ∈ p.token.family, u.flows = true) (width : Nat) :
    (p.lines .plain width).flatMap Text.words = p.token.spoken := by
  have hblank : ∀ b : Bool, (if b then [([] : Text)] else []).flatMap Text.words = [] := by
    intro b
    cases b <;> rfl
  rw [Placed.lines, List.flatMap_append, words_marginLines, hblank, List.append_nil]
  exact words_layout p.token h _ _

theorem words_placed (ts : List Token) (h : ∀ u ∈ families ts, u.flows = true)
    (width margin indent : Nat) :
    ((placed margin indent ts).flatMap (Placed.lines .plain width)).flatMap Text.words =
      spokenBy ts := by
  induction ts generalizing margin indent with
  | nil => simp [placed, spokenBy]
  | cons t ts ih =>
    obtain ⟨ht, hts⟩ := flows_of_families_cons h
    have hset : ∀ m, ((⟨m, indent, t⟩ :: placed m (t.indentAfter indent) ts).flatMap
        (Placed.lines .plain width)).flatMap Text.words = t.spoken ++ spokenBy ts := by
      intro m
      have hp := words_placed_lines (p := ⟨m, indent, t⟩) ht width
      rw [List.flatMap_cons, List.flatMap_append, hp, ih hts]
    rw [spokenBy]
    cases t with
    | shiftIn step => simpa [placed, Token.spoken] using ih hts _ _
    | shiftOut step => simpa [placed, Token.spoken] using ih hts _ _
    | _ => exact hset _

/-- Without a title a page has no foot. -/
theorem footText_eq_nil {ts : List Token} (h : ∀ u ∈ families ts, u.flows = true) (width : Nat) :
    footText ts width = [] := by
  refine footText_of_no_title (fun t ht => ?_) width
  have hf : t.flows = true := h t (mem_families_of_mem ht)
  cases t with
  | title t => simp [Token.flows] at hf
  | _ => rfl

/-- **Layout keeps the words in order.** At every width, a page without titles and without lines
kept as they stand shows the words its tokens speak: none is lost, repeated or run into another. -/
theorem words_render (ts : List Token) (h : ∀ u ∈ families ts, u.flows = true) (width : Nat) :
    (render .plain width ts).words = spokenBy ts := by
  have hr := words_placed ts h (max width 1) 0 defaultIndent
  rw [render, footText_eq_nil h, List.append_nil, renderFrom_eq, Text.words_ended]
  exact hr

/-- A section with a synopsis in it, a tagged paragraph right of a margin, and a link. -/
def spokenPage : List Token :=
  [.heading .major "NAME".toList [.text "spam eggs".toList,
      .synopsis "spam".toList [.option "-s".toList (some "n".toList), .synopsis "eggs".toList []]],
    .shiftIn 2,
    .tagged [.font .boldItalic "a b".toList, .text "c".toList] none [.text "ham and more".toList],
    .link .url "x.org".toList [] ".".toList]

theorem words_render_spokenPage :
    (∀ u ∈ families spokenPage, u.flows = true) ∧
      (render .plain 9 spokenPage).words = ["NAME", "spam", "eggs", "spam", "[-s", "n]", "eggs",
        "a", "b", "c", "ham", "and", "more", "x.org."].map String.toList := by
  have h : ∀ u ∈ families spokenPage, u.flows = true := by decide
  exact ⟨h, (words_render spokenPage h 9).trans (by decide)⟩

end TextPager.Man
