import TextPager.Proofs.Man.Depth
import TextPager.Proofs.Text.Words

/-!
# What a page is made of

A page is read into few shapes of trees. Running text is texts, unknown macros and fonts. A
synopsis holds running text, options and further commands, which hold nothing themselves; a
section holds running text and synopses; every other block holds running text. `Token.Built` is
this grammar, together with a class of characters that all strings of the tree are made of.

The grammar is an invariant of reading: the tokens that are complete, and the token the open block
would close with, are built from the characters of the lines that were read and the spaces
between joined arguments.

**Results.**
* `madeOf_args`: the arguments of a request are made of the characters of the line.
* `offer_built`, `startLine_built`: an open block, and the start of a new one, keep the grammar.
* `tokens_built`: every token of a page is built from the characters of its lines and spaces.
-/
namespace TextPager.Man

/-- Every character of the text is of a class. -/
def madeOf (P : Char → Prop) (t : Text) : Prop := ∀ c ∈ t, P c

namespace Token

/-- Running text. -/
def Inline (P : Char → Prop) : Token → Prop
  | text l | unknown l | font _ l => madeOf P l
  | _ => False

/-- What a synopsis holds. -/
def Unit (P : Char → Prop) : Token → Prop
  | option name argument => madeOf P name ∧ ∀ a ∈ argument, madeOf P a
  | synopsis command cs => madeOf P command ∧ cs = []
  | t => t.Inline P

/-- What a section holds. -/
def Part (P : Char → Prop) : Token → Prop
  | synopsis command cs => madeOf P command ∧ ∀ t ∈ cs, t.Unit P
  | t => t.Inline P

/-- What a page holds. -/
def Built (P : Char → Prop) : Token → Prop
  | text l | unknown l | font _ l => madeOf P l
  | title t =>
    madeOf P t.title ∧ madeOf P t.chapter ∧ madeOf P t.footerMiddle ∧ madeOf P t.footerInside ∧
      madeOf P t.headerMiddle
  | heading _ h cs => madeOf P h ∧ ∀ t ∈ cs, t.Part P
  | paragraph cs | verbatim cs => ∀ t ∈ cs, t.Inline P
  | indented tag _ cs => (∀ t ∈ tag, madeOf P t) ∧ ∀ t ∈ cs, t.Inline P
  | tagged tags _ cs => tags ≠ [] ∧ (∀ t ∈ tags, t.Inline P) ∧ ∀ t ∈ cs, t.Inline P
  | shiftIn _ | shiftOut _ => True
  | synopsis command cs => madeOf P command ∧ ∀ t ∈ cs, t.Unit P
  | option name argument => madeOf P name ∧ ∀ a ∈ argument, madeOf P a
  | link _ address cs punctuation =>
    madeOf P address ∧ (∀ t ∈ cs, t.Inline P) ∧ madeOf P punctuation

variable {P : Char → Prop} {t : Token}

theorem Inline.unit (h : t.Inline P) : t.Unit P := by
  cases t <;> first | exact h | cases h

theorem Inline.part (h : t.Inline P) : t.Part P := by
  cases t <;> first | exact h | cases h

end Token

/-! ## The strings of a request -/

section Strings

variable {P : Char → Prop}

theorem madeOf_nil : madeOf P [] := fun c hc => by cases hc

theorem madeOf.append {a b : Text} (ha : madeOf P a) (hb : madeOf P b) : madeOf P (a ++ b) :=
  fun c hc => (List.mem_append.1 hc).elim (ha c) (hb c)

theorem madeOf.snoc {a : Text} {c : Char} (ha : madeOf P a) (hc : P c) : madeOf P (a ++ [c]) :=
  ha.append fun _ hd => List.mem_singleton.1 hd ▸ hc

theorem madeOf_of_sublist {a b : Text} (h : a.Sublist b) (hb : madeOf P b) : madeOf P a :=
  fun c hc => hb c (h.subset hc)

theorem madeOf_joinWords (hs : P ' ') {ts : List Text} (h : ∀ t ∈ ts, madeOf P t) :
    madeOf P (Text.joinWords ts) :=
  Text.forall_mem_intercalate (List.forall_mem_singleton.2 hs) h

/-- What is read into the argument in progress. -/
def ArgumentScan.read : ArgumentScan → Text
  | between => []
  | bare a | quoted a => a

theorem madeOf_argumentsFrom (s : ArgumentScan) (t : Text) (hs : madeOf P s.read)
    (ht : madeOf P t) : ∀ a ∈ argumentsFrom s t, madeOf P a := by
  have tail : ∀ {c : Char} {t : Text}, madeOf P (c :: t) → madeOf P t :=
    fun h => (List.forall_mem_cons.1 h).2
  have head : ∀ {c : Char} {t : Text}, madeOf P (c :: t) → P c :=
    fun h => (List.forall_mem_cons.1 h).1
  fun_induction argumentsFrom s t with
  | case1 => simp
  | case2 a => exact List.forall_mem_singleton.2 hs
  | case3 a => exact List.forall_mem_singleton.2 hs
  -- Two quotes inside quotes are one.
  | case4 a t ih => exact ih (hs.snoc (head ht)) (tail (tail ht))
  | case5 a t _ ih => exact ih hs (tail ht)
  | case6 a c t _ _ ih => exact ih (hs.snoc (head ht)) (tail ht)
  | case7 a c t _ ih => exact List.forall_mem_cons.2 ⟨hs, ih madeOf_nil (tail ht)⟩
  | case8 a c t _ ih => exact ih (hs.snoc (head ht)) (tail ht)
  | case9 t ih => exact ih madeOf_nil (tail ht)
  | case10 c t _ _ ih => exact ih madeOf_nil (tail ht)
  | case11 c t _ _ ih => exact ih (List.forall_mem_singleton.2 (head ht)) (tail ht)

/-- The arguments of a request are made of the characters of the line. -/
theorem madeOf_args {line : Text} {r : Request} (hr : Request.ofLine? line = some r)
    (h : madeOf P line) : ∀ a ∈ r.args, madeOf P a := by
  unfold Request.ofLine? at hr
  split at hr
  · rename_i body
    cases hr
    refine madeOf_argumentsFrom .between _ madeOf_nil (madeOf_of_sublist ?_ h)
    exact (List.dropWhile_sublist _).trans (List.sublist_cons_self _ _)
  · cases hr

end Strings

/-! ## Lines of content -/

variable {P : Char → Prop}

/-- The token of a line of content, if it makes one. -/
theorem ofLine_inline (hs : P ' ') {line : Text} (h : madeOf P line) :
    (∀ t, Content.ofLine line = .text t → madeOf P t) ∧
      (∀ t, Content.ofLine line = .unknown t → madeOf P t) ∧
      ∀ f t, Content.ofLine line = .font f t → madeOf P t := by
  unfold Content.ofLine
  split
  · exact ⟨fun t ht => by cases ht; exact h, by simp, by simp⟩
  · rename_i f args hr
    split
    · simp
    · refine ⟨by simp, by simp, fun g t ht => ?_⟩
      cases ht
      exact madeOf_joinWords hs (madeOf_args hr h)
  · refine ⟨by simp, fun t ht => ?_, by simp⟩
    cases ht
    exact madeOf_of_sublist (List.drop_sublist 1 line) h

/-- The text a line of content carries is made of its characters. -/
theorem madeOf_text? (hs : P ' ') {line : Text} (h : madeOf P line) :
    madeOf P ((Content.ofLine line).text?.getD []) := by
  obtain ⟨h1, h2, h3⟩ := ofLine_inline hs h
  cases hl : Content.ofLine line with
  | text t => exact h1 t hl
  | unknown t => exact h2 t hl
  | font f t => exact h3 f t hl
  | awaiting f => exact madeOf_nil

theorem forall_push {Q : Token → Prop} {b : Body} {t : Token} (hb : ∀ u ∈ b.tokens, Q u)
    (ht : Q t) :
    ∀ u ∈ (b.push t).tokens, Q u :=
  List.forall_mem_append.2 ⟨hb, List.forall_mem_singleton.2 ht⟩

/-- A line adds running text to a body, if anything. -/
theorem forall_add (hs : P ' ') {line : Text} (h : madeOf P line) {Q : Token → Prop}
    (hQ : ∀ t : Token, t.Inline P → Q t) {b : Body} (hb : ∀ t ∈ b.tokens, Q t) :
    ∀ t ∈ (b.add line).tokens, Q t := by
  obtain ⟨h1, h2, h3⟩ := ofLine_inline hs h
  unfold Body.add
  split
  · rename_i f _
    exact forall_push (t := .font f line) hb (hQ _ h)
  · split
    · rename_i t hl
      exact forall_push hb (hQ _ (h1 t hl))
    · rename_i t hl
      exact forall_push hb (hQ _ (h2 t hl))
    · rename_i f t hl
      exact forall_push hb (hQ _ (h3 f t hl))
    · exact hb

/-! ## One line offered to a block -/

theorem optionToken_eq (hs : P ' ') {args : List Text} (h : ∀ a ∈ args, madeOf P a) :
    ∃ name argument, optionToken args = .option name argument ∧ madeOf P name ∧
      ∀ a ∈ argument, madeOf P a := by
  unfold optionToken
  split
  · exact ⟨[], none, rfl, madeOf_nil, by simp⟩
  · rename_i name
    exact ⟨name, none, rfl, h name List.mem_cons_self, by simp⟩
  · rename_i name argument _
    refine ⟨name, _, rfl, h name List.mem_cons_self, fun a ha => ?_⟩
    cases ha
    exact madeOf_joinWords hs fun b hb => h b (List.mem_cons_of_mem _ hb)

/-- A synopsis that takes a line stays one. -/
theorem offer_synopsis_built (hs : P ' ') {line : Text} (h : madeOf P line) {s s' : OpenSynopsis}
    (hb : s.close.Part P) (ho : s.offer line = some s') : s'.close.Part P := by
  unfold OpenSynopsis.offer at ho
  split at ho
  · cases ho
    exact hb
  · split at ho
    · cases ho
    · rename_i args hr
      cases ho
      obtain ⟨name, argument, he, hn, ha⟩ := optionToken_eq hs (madeOf_args hr h)
      exact ⟨hb.1, forall_push hb.2 (he ▸ ⟨hn, ha⟩)⟩
    · rename_i args hr
      cases ho
      exact ⟨hb.1, forall_push hb.2 ⟨madeOf_joinWords hs (madeOf_args hr h), rfl⟩⟩
    · cases ho
      exact ⟨hb.1, forall_add hs h (fun t ht => ht.unit) hb.2⟩

/-- What an offer makes is built from a class of characters. -/
def Offer.Built (P : Char → Prop) : Offer → Prop
  | keeps b => b.close.Built P
  | closes t | declines t => t.Built P

theorem absorb_built {body : Body} {line : Text} {resume : Body → OpenBlock}
    (hb : (resume body).close.Built P) (ha : (resume (body.add line)).close.Built P) :
    (OpenBlock.absorb body line resume).Built P := by
  unfold OpenBlock.absorb
  split
  · exact hb
  · split
    · exact hb
    · exact ha

theorem offer_heading_built (hs : P ' ') {line : Text} (h : madeOf P line) (rank : HeadingRank)
    (heading : Option Text) (body : Body) (inner : Option OpenSynopsis)
    (hb : (OpenBlock.heading rank heading body inner).close.Built P) :
    (OpenBlock.offer (.heading rank heading body inner) line).Built P := by
  cases inner with
  | some s =>
    obtain ⟨hh, hparts⟩ := hb
    obtain ⟨hbody, hinner⟩ := List.forall_mem_append.1 hparts
    simp only [OpenBlock.offer]
    split
    · rename_i s' ho
      have := offer_synopsis_built hs h (List.forall_mem_singleton.1 hinner) ho
      exact ⟨hh, forall_push hbody this⟩
    · exact ⟨hh, hparts⟩
  | none =>
    cases heading with
    | none =>
      simp only [OpenBlock.offer]
      split
      · exact hb
      · split
        · exact hb
        · exact ⟨madeOf_text? hs h, hb.2⟩
    | some heading =>
      simp only [OpenBlock.offer]
      split
      · rename_i args hr
        have hpart : (OpenSynopsis.ofArgs args).close.Part P :=
          ⟨madeOf_joinWords hs (madeOf_args hr h), by simp [OpenSynopsis.ofArgs, Body.empty]⟩
        exact ⟨hb.1, forall_push hb.2 hpart⟩
      · exact absorb_built hb ⟨hb.1, forall_add hs h (fun t ht => ht.part) hb.2⟩

/-- The tags a paragraph closes with: those it has, or an empty one. -/
theorem tagged_built (tags : List Token) (indent : Option Nat) (body : List Token) :
    (Token.tagged (if tags.isEmpty then [.text []] else tags) indent body).Built P ↔
      (∀ t ∈ tags, t.Inline P) ∧ ∀ t ∈ body, t.Inline P := by
  cases tags with
  | nil =>
    simp [Token.Built, Token.Inline, madeOf_nil]
  | cons t tags => simp [Token.Built]

theorem offer_tagged_built (hs : P ' ') {line : Text} (h : madeOf P line) (indent : Option Nat)
    (tags : Body) (awaits : Bool) (body : Body)
    (hb : (OpenBlock.tagged indent tags awaits body).close.Built P) :
    (OpenBlock.offer (.tagged indent tags awaits body) line).Built P := by
  obtain ⟨htags, hbody⟩ := (tagged_built _ _ _).1 hb
  cases awaits with
  | true =>
    simp only [OpenBlock.offer]
    split
    · exact hb
    · split
      · exact hb
      · exact (tagged_built _ indent _).2 ⟨forall_add hs h (fun t ht => ht) htags, hbody⟩
  | false =>
    simp only [OpenBlock.offer]
    split
    · exact hb
    · exact absorb_built hb ((tagged_built _ _ _).2 ⟨htags, forall_add hs h (fun t ht => ht) hbody⟩)

/-- A line offered to an open block leaves the grammar as it is. -/
theorem offer_built (hs : P ' ') {line : Text} (h : madeOf P line) {b : OpenBlock}
    (hb : b.close.Built P) : (b.offer line).Built P := by
  cases b with
  | heading rank heading body inner => exact offer_heading_built hs h rank heading body inner hb
  | paragraph body => exact absorb_built hb (forall_add hs h (fun t ht => ht) hb)
  | indented tag indent body =>
    exact absorb_built hb ⟨hb.1, forall_add hs h (fun t ht => ht) hb.2⟩
  | tagged indent tags awaits body => exact offer_tagged_built hs h indent tags awaits body hb
  | verbatim body =>
    simp only [OpenBlock.offer]
    split
    · exact hb
    · split
      · exact hb
      · exact forall_add hs h (fun t ht => ht) hb
  | synopsis s =>
    simp only [OpenBlock.offer]
    split
    · rename_i s' ho
      exact offer_synopsis_built hs h hb ho
    · exact hb
  | link kind address body =>
    obtain ⟨ha, hbody, hp⟩ := hb
    simp only [OpenBlock.offer]
    split
    · rename_i args hr
      exact ⟨ha, hbody, madeOf_joinWords hs (madeOf_args hr h)⟩
    · split
      · exact ⟨ha, hbody, hp⟩
      · split
        · exact ⟨ha, hbody, hp⟩
        · exact ⟨ha, forall_add hs h (fun t ht => ht) hbody, hp⟩
  | font f => exact h

/-! ## Pages -/

/-- A line read while no block is open. -/
theorem startLine_built (hs : P ' ') {line : Text} (h : madeOf P line) :
    ∀ t ∈ (startLine line).1 ++ inProgress (startLine line).2, t.Built P := by
  unfold startLine
  split
  · exact List.forall_mem_singleton.2 h
  · rename_i keyword args hr
    have hargs : ∀ a ∈ args, madeOf P a := madeOf_args hr h
    have harg : ∀ i, madeOf P (args.getD i []) := by
      intro i
      rw [List.getD_eq_getElem?_getD]
      cases hi : args[i]? with
      | none => exact madeOf_nil
      | some a => exact hargs a (List.mem_of_getElem? hi)
    obtain ⟨h1, h2, h3⟩ := ofLine_inline hs h
    cases keyword with
    | title => exact List.forall_mem_singleton.2 ⟨harg 0, harg 1, harg 2, harg 3, harg 4⟩
    | heading rank =>
      refine List.forall_mem_singleton.2 ⟨?_, by simp [Body.empty]⟩
      by_cases he : args.isEmpty = true
      · simpa [he] using madeOf_nil
      · simpa [he] using madeOf_joinWords hs hargs
    | paragraph | verbatim =>
      refine List.forall_mem_singleton.2 ?_
      simp [OpenBlock.close, Token.Built, Body.empty]
    | indented =>
      refine List.forall_mem_singleton.2 ⟨fun t ht => ?_, by simp [Body.empty]⟩
      exact hargs t (List.mem_of_head? ht)
    | tagged | furtherTag =>
      refine List.forall_mem_singleton.2 ((tagged_built [] _ []).2 ?_)
      simp
    | shiftIn | shiftOut => exact List.forall_mem_singleton.2 trivial
    | synopsis =>
      refine List.forall_mem_singleton.2 ⟨madeOf_joinWords hs hargs, ?_⟩
      simp [OpenSynopsis.ofArgs, Body.empty]
    | option =>
      obtain ⟨name, argument, he, hn, ha⟩ := optionToken_eq hs hargs
      refine List.forall_mem_singleton.2 ?_
      rw [he]
      exact ⟨hn, ha⟩
    | link kind =>
      refine List.forall_mem_singleton.2 ⟨?_, by simp [Body.empty], madeOf_nil⟩
      cases args with
      | nil => exact madeOf_nil
      | cons a args => exact hargs a List.mem_cons_self
    | endVerbatim | endSynopsis | endLink => intro t ht; cases ht
    | font _ | unknown =>
      cases hl : Content.ofLine line with
      | text t => exact List.forall_mem_singleton.2 (h1 t hl)
      | unknown t => exact List.forall_mem_singleton.2 (h2 t hl)
      | font f t => exact List.forall_mem_singleton.2 (h3 f t hl)
      | awaiting f => exact List.forall_mem_singleton.2 madeOf_nil

/-- One line, offered to the open block first. -/
theorem readLine_built (hs : P ' ') {current : Option OpenBlock}
    (hc : ∀ t ∈ inProgress current, t.Built P) {line : Text} (h : madeOf P line) :
    ∀ t ∈ (readLine current line).1 ++ inProgress (readLine current line).2, t.Built P := by
  unfold readLine
  split
  · exact hc
  · cases current with
    | none => exact startLine_built hs h
    | some block =>
      have ho := offer_built hs h (b := block) (hc _ List.mem_cons_self)
      dsimp only
      split
      · rename_i b hb
        rw [hb] at ho
        exact List.forall_mem_singleton.2 ho
      · rename_i t hb
        rw [hb] at ho
        exact List.forall_mem_singleton.2 ho
      · rename_i t hb
        rw [hb] at ho
        exact List.forall_mem_cons.2 ⟨ho, startLine_built hs h⟩

/-- The tokens that lines complete, and the one the block they leave open would close with. -/
theorem readFrom_built (hs : P ' ') {current : Option OpenBlock}
    (hc : ∀ t ∈ inProgress current, t.Built P) {lines : List Text}
    (h : ∀ line ∈ lines, madeOf P line) : ∀ t ∈ readFrom current lines, t.Built P := by
  induction lines generalizing current with
  | nil => exact hc
  | cons line lines ih =>
    obtain ⟨hl, hls⟩ := List.forall_mem_cons.1 h
    obtain ⟨h1, h2⟩ := List.forall_mem_append.1 (readLine_built hs hc hl)
    rw [readFrom_cons]
    exact List.forall_mem_append.2 ⟨h1, ih h2 hls⟩

/-- Every token of a page is built from the characters of its lines and spaces. -/
theorem tokens_built (hs : P ' ') {page : Text} (h : ∀ line ∈ page.lines, madeOf P line) :
    ∀ t ∈ tokens page, t.Built P :=
  readFrom_built hs (fun t ht => by cases ht) h

/-- A line of a page holds characters of the page, and no newline. -/
theorem mem_lines {page line : Text} (h : line ∈ page.lines) {c : Char} (hc : c ∈ line) :
    c ∈ page ∧ c ≠ '\n' := by
  have hpiece : ∀ p ∈ page.piecesAt '\n', c ∈ p → c ∈ page ∧ c ≠ '\n' := fun p hp hcp =>
    ⟨Text.mem_of_mem_pieces hp hcp, by simpa using Text.not_mem_of_mem_pieces hp hcp⟩
  rcases List.mem_append.1 h with h | h
  · obtain ⟨p, hp, rfl⟩ := List.mem_map.1 h
    have hcp : c ∈ p := by
      unfold Text.dropReturn at hc
      split at hc
      · exact (List.dropLast_sublist p).subset hc
      · exact hc
    exact hpiece p ((List.dropLast_sublist _).subset hp) hcp
  · have hp := Option.mem_toList.1 (List.mem_filter.1 h).1
    exact hpiece line (List.mem_of_getLast? hp) hc

end TextPager.Man
