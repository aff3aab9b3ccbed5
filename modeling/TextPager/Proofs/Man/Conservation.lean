import Mathlib.Data.Multiset.Count
import TextPager.Proofs.Man.Depth

/-!
# Reading keeps the text

A plain line of a page is neither empty nor a request nor a comment. Reading a page may route such
a line into a heading, a tag, the body of a block, a synopsis inside a section, or a font that
waits for its text; here none is dropped on the way, none is used twice, and no text is made up.

What has been read so far is the tokens that are complete and the token the open block would
close with. `Gains` says what a step may do to them: every plain line that was read is held
afterwards on top of what was held before, and what text tokens carry on top of what they carried
before are plain lines that were read. Only strings that are not empty are counted, because an
open block stands for the tokens it would close with: a heading without its text holds an empty
string, and a tagged paragraph without a tag an empty text.

**Results.**
* `offer_conserves`, `startLine_gains`: an open block, and the start of a new one, lose nothing of
  a line.
* `readLines_gains`: nor does any run of lines.
* `plainLines_conserved`: the plain lines of a page are among the strings of its text tokens, font
  tokens and headings, and the strings of its text tokens are among its plain lines.
-/
namespace TextPager.Man

/-- A line that is text: not empty, no request and no comment. -/
def isPlainLine (line : Text) : Bool :=
  !line.isEmpty && line.head? != some '.' && !isComment line

/-- The plain lines of a page, in order. -/
def plainLines (page : Text) : List Text := page.lines.filter isPlainLine

/-- From tokens `before` to tokens `after`, lines `taken` are held on top of what was held, and
text tokens carry no more on top of what they carried. Empty strings do not count. -/
def Gains (taken : List Text) (before after : List Token) : Prop :=
  ∀ x, x ≠ [] →
    taken.count x + (held before).count x ≤ (held after).count x ∧
      (texts after).count x ≤ (texts before).count x + taken.count x

namespace Gains

variable {p q : List Text} {a b c : List Token}

theorem refl (a : List Token) : Gains [] a a := fun x _ => by simp

theorem trans (h : Gains p a b) (k : Gains q b c) : Gains (p ++ q) a c := by
  intro x hx
  obtain ⟨h1, h2⟩ := h x hx
  obtain ⟨k1, k2⟩ := k x hx
  rw [List.count_append]
  omega

/-- Tokens that were complete before stay as they are. -/
theorem frame (d : List Token) (h : Gains p a b) : Gains p (d ++ a) (d ++ b) := by
  intro x hx
  obtain ⟨h1, h2⟩ := h x hx
  simp only [held_append, texts_append, List.count_append]
  omega

/-- A block around tokens gains what they gain. -/
theorem inside (t u : Token) (h : Gains p t.children u.children) (hh : t.held? = u.held?)
    (ht : t.text? = u.text?) : Gains p [t] [u] := by
  intro x hx
  obtain ⟨h1, h2⟩ := h x hx
  simp only [held_cons, texts_cons, held_nil, texts_nil, hh, ht, List.append_nil,
    List.count_append]
  omega

end Gains

/-! ## One line of content -/

/-- The line, if it is plain. -/
def plainPart (line : Text) : List Text := [line].filter isPlainLine

theorem ofLine?_ne_none_of_dot {line : Text} (h : line.head? = some '.') :
    Request.ofLine? line ≠ none := by
  cases line with
  | nil => cases h
  | cons c t => cases h; simp [Request.ofLine?]

theorem plainPart_of_request {line : Text} {r : Request} (h : Request.ofLine? line = some r) :
    plainPart line = [] := by
  have hd : line.head? = some '.' := by
    unfold Request.ofLine? at h
    split at h
    · rfl
    · cases h
  simp [plainPart, isPlainLine, hd]

theorem plainPart_of_isEmpty {line : Text} (h : line.isEmpty = true) : plainPart line = [] := by
  simp [plainPart, isPlainLine, h]

theorem plainPart_of_isComment {line : Text} (h : isComment line = true) : plainPart line = [] := by
  simp [plainPart, isPlainLine, h]

/-- A structural line makes a request. -/
theorem plainPart_of_isStructural {line : Text} (h : isStructural line = true) :
    plainPart line = [] := by
  unfold isStructural keyword? at h
  cases hr : Request.ofLine? line with
  | none => simp [hr] at h
  | some r => exact plainPart_of_request hr

theorem plainPart_of_keyword {line : Text} {k : Keyword} (h : keyword? line = some k) :
    plainPart line = [] := by
  unfold keyword? at h
  obtain ⟨r, hr, -⟩ := Option.map_eq_some_iff.1 h
  exact plainPart_of_request hr

/-- A line kept as a text token is plain, unless it is empty. -/
theorem gains_text {line : Text} (h : Request.ofLine? line = none) (hc : isComment line = false) :
    Gains (plainPart line) [] [.text line] := by
  intro x hx
  have hd : line.head? ≠ some '.' := fun hd => ofLine?_ne_none_of_dot hd h
  cases line with
  | nil => simp [plainPart, isPlainLine, Token.held?, Token.text?, Token.children, hx.symm]
  | cons c t =>
    have hp : plainPart (c :: t) = [c :: t] := by
      simpa [plainPart, isPlainLine, hc] using hd
    simp [hp, Token.held?, Token.text?, Token.children]

/-- A font token holds the line whatever it is. -/
theorem gains_font (f : Font) (line : Text) : Gains (plainPart line) [] [.font f line] := by
  intro x _
  have := List.Sublist.count_le x (List.filter_sublist (p := isPlainLine) (l := [line]))
  simpa [Token.held?, Token.text?, Token.children, plainPart] using this

/-- Tokens without text of their own may follow a line that is not plain. -/
theorem gains_of_not_plain {line : Text} (h : plainPart line = []) {new : List Token}
    (hn : ∀ t ∈ texts new, t = []) : Gains (plainPart line) [] new := by
  intro x hx
  have h0 : (texts new).count x = 0 := List.count_eq_zero.2 fun hm => hx (hn x hm)
  simp [h, h0]

/-- A request is never taken for text. -/
theorem ofLine_ne_text_of_request {line : Text} {r : Request} (h : Request.ofLine? line = some r)
    (t : Text) : Content.ofLine line ≠ .text t := by
  unfold Content.ofLine
  split
  · simp_all
  · split <;> simp
  · simp

/-- What a line of content becomes. -/
theorem add_gains (b : Body) {line : Text} (hc : isComment line = false) :
    Gains (plainPart line) b.tokens (b.add line).tokens := by
  suffices h : ∃ new, (b.add line).tokens = b.tokens ++ new ∧ Gains (plainPart line) [] new by
    obtain ⟨new, hn, hg⟩ := h
    rw [hn]
    simpa using hg.frame b.tokens
  unfold Body.add
  cases b.pending with
  | some f => exact ⟨[.font f line], rfl, gains_font f line⟩
  | none =>
    cases hr : Request.ofLine? line with
    | none =>
      refine ⟨[.text line], ?_, gains_text hr hc⟩
      simp [Content.ofLine, hr, Body.push]
    | some r =>
      have hp := plainPart_of_request hr
      cases hl : Content.ofLine line with
      | text t => exact absurd hl (ofLine_ne_text_of_request hr t)
      | unknown t => exact ⟨[.unknown t], rfl, gains_of_not_plain hp (fun _ h => by cases h)⟩
      | font f t => exact ⟨[.font f t], rfl, gains_of_not_plain hp (fun _ h => by cases h)⟩
      | awaiting f => exact ⟨[], by simp, gains_of_not_plain hp (fun _ h => by cases h)⟩

/-! ## One line offered to a block -/

/-- What may become of a block that would close with `t` when a plain or other line is offered: the
block gains the line, or it leaves a line that is not plain. -/
def Offer.Conserves (line : Text) (t : Token) : Offer → Prop
  | .keeps b => Gains (plainPart line) [t] [b.close]
  | .closes u => Gains (plainPart line) [t] [u]
  | .declines u => u = t ∧ plainPart line = []

theorem conserves_of_not_plain {line : Text} (h : plainPart line = []) (t : Token) :
    Gains (plainPart line) [t] [t] := by
  rw [h]
  exact Gains.refl _

/-- A body takes a line or closes with it, in a block that gains what the body gains. -/
theorem absorb_conserves {body : Body} {line : Text} (hc : isComment line = false)
    (resume : Body → OpenBlock)
    (hr : ∀ b : Body, Gains (plainPart line) body.tokens b.tokens →
      Gains (plainPart line) [(resume body).close] [(resume b).close]) :
    (OpenBlock.absorb body line resume).Conserves line (resume body).close := by
  unfold OpenBlock.absorb
  split
  · rename_i he
    exact conserves_of_not_plain (plainPart_of_isEmpty he) _
  · split
    · rename_i hs
      exact ⟨rfl, plainPart_of_isStructural (Bool.and_eq_true_iff.1 hs).2⟩
    · exact hr _ (add_gains body hc)

/-- A synopsis ends at a request only. -/
theorem plainPart_of_offer_none {s : OpenSynopsis} {line : Text} (h : s.offer line = none) :
    plainPart line = [] := by
  unfold OpenSynopsis.offer at h
  split at h
  · cases h
  · split at h
    · rename_i hr; exact plainPart_of_request hr
    · cases h
    · cases h
    · cases h

/-- A synopsis takes any line but its end. -/
theorem synopsis_gains {s s' : OpenSynopsis} {line : Text} (hc : isComment line = false)
    (h : s.offer line = some s') : Gains (plainPart line) [s.close] [s'.close] := by
  have around : ∀ b : Body, Gains (plainPart line) s.body.tokens b.tokens →
      Gains (plainPart line) [s.close] [OpenSynopsis.close { s with body := b }] :=
    fun b h => h.inside _ _ rfl rfl
  have pushed : ∀ {r : Request} (t : Token), Request.ofLine? line = some r → texts [t] = [] →
      Gains (plainPart line) s.body.tokens (s.body.push t).tokens := by
    intro r t hr ht
    replace ht : ∀ u ∈ texts [t], u = [] := by
      rw [ht]
      intro u hu
      cases hu
    simpa [Body.push] using (gains_of_not_plain (plainPart_of_request hr) ht).frame s.body.tokens
  unfold OpenSynopsis.offer at h
  split at h
  · rename_i he
    cases h
    exact conserves_of_not_plain (plainPart_of_isEmpty he) _
  · split at h
    · cases h
    · rename_i args hr
      cases h
      refine around _ (pushed _ hr ?_)
      unfold optionToken
      split <;> rfl
    · rename_i args hr
      cases h
      exact around _ (pushed _ hr rfl)
    · cases h
      exact around _ (add_gains s.body hc)

/-- A heading without its text takes it from a line of content. -/
theorem heading_gains (rank : HeadingRank) (body : Body) (line : Text) :
    Gains (plainPart line) [(OpenBlock.heading rank none body none).close]
      [(OpenBlock.heading rank (Content.ofLine line).text? body none).close] := by
  intro x hx
  simp only [OpenBlock.close, held_cons, texts_cons, Token.held?, Token.text?, Token.children,
    held_nil, texts_nil, Option.toList_some, Option.toList_none, Option.getD_none, List.append_nil,
    List.nil_append, List.count_append]
  refine ⟨?_, Nat.le_add_right _ _⟩
  have h0 : [([] : Text)].count x = 0 := List.count_eq_zero.2 (by simpa using hx)
  cases hr : Request.ofLine? line with
  | none =>
    have hl : Content.ofLine line = .text line := by simp [Content.ofLine, hr]
    have hf := List.Sublist.count_le x (List.filter_sublist (p := isPlainLine) (l := [line]))
    simp only [hl, Content.text?, Option.getD_some, plainPart]
    omega
  | some r =>
    rw [plainPart_of_request hr, List.count_nil]
    omega

theorem heading_conserves (rank : HeadingRank) (h : Option Text) (body : Body)
    (inner : Option OpenSynopsis) {line : Text} (hc : isComment line = false) :
    (OpenBlock.offer (.heading rank h body inner) line).Conserves line
      (OpenBlock.heading rank h body inner).close := by
  cases inner with
  | some s =>
    simp only [OpenBlock.offer]
    split
    · rename_i s' hs
      have hg := (synopsis_gains hc hs).frame body.tokens
      exact Gains.inside _ _ hg rfl rfl
    · rename_i hs
      exact conserves_of_not_plain (plainPart_of_offer_none hs) _
  | none =>
    cases h with
    | none =>
      simp only [OpenBlock.offer]
      split
      · rename_i he
        exact conserves_of_not_plain (plainPart_of_isEmpty he) _
      · split
        · rename_i hs
          exact ⟨rfl, plainPart_of_isStructural hs⟩
        · exact heading_gains rank body line
    | some h =>
      simp only [OpenBlock.offer]
      split
      · rename_i args hr
        have hs : ∀ t ∈ texts [(OpenSynopsis.ofArgs args).close], t = [] :=
          fun _ h => by cases h
        have hg := (gains_of_not_plain (plainPart_of_request hr) hs).frame body.tokens
        rw [List.append_nil] at hg
        exact Gains.inside _ _ hg rfl rfl
      · exact absorb_conserves hc _ fun b hb => hb.inside _ _ rfl rfl

/-- The tags of a tagged paragraph that closes; one without tags stands under an empty text. -/
theorem tags_gains {line : Text} {tags tags' : Body} {body body' : List Token} (indent : Option Nat)
    (h : Gains (plainPart line) (tags.tokens ++ body) (tags'.tokens ++ body')) :
    Gains (plainPart line)
      [.tagged (if tags.tokens.isEmpty then [.text []] else tags.tokens) indent body]
      [.tagged (if tags'.tokens.isEmpty then [.text []] else tags'.tokens) indent body'] := by
  have shown : ∀ (ts cs : List Token) (x : Text), x ≠ [] →
      (held [.tagged (if ts.isEmpty then [.text []] else ts) indent cs]).count x =
        (held (ts ++ cs)).count x ∧
      (texts [.tagged (if ts.isEmpty then [.text []] else ts) indent cs]).count x =
        (texts (ts ++ cs)).count x := by
    intro ts cs x hx
    have h0 : ([] : Text) ≠ x := hx.symm
    cases ts <;> simp [Token.held?, Token.text?, Token.children, h0]
  intro x hx
  obtain ⟨h1, h2⟩ := h x hx
  obtain ⟨a1, a2⟩ := shown tags.tokens body x hx
  obtain ⟨b1, b2⟩ := shown tags'.tokens body' x hx
  omega

theorem tagged_conserves (indent : Option Nat) (tags : Body) (awaits : Bool) (body : Body)
    {line : Text} (hc : isComment line = false) :
    (OpenBlock.offer (.tagged indent tags awaits body) line).Conserves line
      (OpenBlock.tagged indent tags awaits body).close := by
  cases awaits with
  | true =>
    simp only [OpenBlock.offer]
    split
    · rename_i hk
      refine conserves_of_not_plain ?_ _
      rcases Bool.or_eq_true_iff.1 hk with he | hk
      · exact plainPart_of_isEmpty he
      · exact plainPart_of_keyword (by simpa using hk)
    · split
      · rename_i hs
        exact ⟨rfl, plainPart_of_isStructural hs⟩
      · refine tags_gains indent ?_
        intro x hx
        obtain ⟨h1, h2⟩ := add_gains tags hc x hx
        simp only [held_append, texts_append, List.count_append]
        omega
  | false =>
    simp only [OpenBlock.offer]
    split
    · rename_i hk
      exact conserves_of_not_plain (plainPart_of_keyword (by simpa using hk)) _
    · exact absorb_conserves hc _ fun b hb => tags_gains indent (hb.frame tags.tokens)

/-- A line offered to an open block is kept by it, closes it, or is left to what comes next and is
then no plain line. -/
theorem offer_conserves (b : OpenBlock) {line : Text} (hc : isComment line = false) :
    (b.offer line).Conserves line b.close := by
  cases b with
  | heading rank h body inner => exact heading_conserves rank h body inner hc
  | paragraph body => exact absorb_conserves hc .paragraph fun b hb => hb.inside _ _ rfl rfl
  | indented tag indent body =>
    exact absorb_conserves hc (.indented tag indent) fun b hb => hb.inside _ _ rfl rfl
  | tagged indent tags awaits body => exact tagged_conserves indent tags awaits body hc
  | verbatim body =>
    simp only [OpenBlock.offer]
    split
    · rename_i hk
      exact conserves_of_not_plain (plainPart_of_keyword (by simpa using hk)) _
    · split
      · rename_i hs
        exact ⟨rfl, plainPart_of_isStructural hs⟩
      · exact (add_gains body hc).inside _ _ rfl rfl
  | synopsis s =>
    simp only [OpenBlock.offer]
    split
    · rename_i s' hs
      exact synopsis_gains hc hs
    · rename_i hs
      exact conserves_of_not_plain (plainPart_of_offer_none hs) _
  | link kind address body =>
    simp only [OpenBlock.offer]
    split
    · rename_i args hr
      refine Gains.inside _ _ ?_ rfl rfl
      rw [plainPart_of_request hr]
      exact Gains.refl _
    · split
      · rename_i he
        exact conserves_of_not_plain (plainPart_of_isEmpty he) _
      · split
        · rename_i hs
          exact ⟨rfl, plainPart_of_isStructural hs⟩
        · exact (add_gains body hc).inside _ _ rfl rfl
  | font f =>
    intro x hx
    have h0 : ([] : Text) ≠ x := hx.symm
    obtain ⟨h1, h2⟩ := gains_font f line x hx
    simpa [OpenBlock.close, Token.held?, Token.text?, Token.children, h0] using h1

/-! ## Runs of lines -/

/-- A line read while no block is open. -/
theorem startLine_gains {line : Text} (hc : isComment line = false) :
    Gains (plainPart line) [] ((startLine line).1 ++ inProgress (startLine line).2) := by
  cases hr : Request.ofLine? line with
  | none =>
    have hs : startLine line = ([.text line], none) := by simp [startLine, hr]
    rw [hs]
    exact gains_text hr hc
  | some r =>
    refine gains_of_not_plain (plainPart_of_request hr) ?_
    obtain ⟨keyword, args⟩ := r
    simp only [startLine, hr]
    cases keyword with
    | option =>
      intro t ht
      rcases args with _ | ⟨a, _ | ⟨b, args⟩⟩ <;> cases ht
    | font f =>
      cases hl : Content.ofLine line with
      | text t => exact absurd hl (ofLine_ne_text_of_request hr t)
      | _ => exact fun _ ht => by cases ht
    | unknown =>
      cases hl : Content.ofLine line with
      | text t => exact absurd hl (ofLine_ne_text_of_request hr t)
      | _ => exact fun _ ht => by cases ht
    -- A tagged paragraph starts out with the empty text that stands for a missing tag.
    | tagged | furtherTag =>
      intro t ht
      simpa [inProgress, OpenBlock.close, Body.empty, Token.children, Token.text?] using ht
    | _ => exact fun _ ht => by cases ht

/-- One line, offered to the open block first. -/
theorem readLine_gains (current : Option OpenBlock) (line : Text) :
    Gains (plainPart line) (inProgress current)
      ((readLine current line).1 ++ inProgress (readLine current line).2) := by
  cases hc : isComment line with
  | true =>
    rw [plainPart_of_isComment hc]
    simpa [readLine, hc] using Gains.refl (inProgress current)
  | false =>
    cases current with
    | none =>
      have hs : readLine none line = startLine line := by simp [readLine, hc]
      rw [hs]
      exact startLine_gains hc
    | some block =>
      have ho := offer_conserves block hc
      cases h : block.offer line with
      | keeps b =>
        rw [h] at ho
        simpa [readLine, hc, h, inProgress, Offer.Conserves] using ho
      | closes t =>
        rw [h] at ho
        simpa [readLine, hc, h, inProgress, Offer.Conserves] using ho
      | declines t =>
        rw [h] at ho
        obtain ⟨rfl, -⟩ := ho
        simpa [readLine, hc, h, inProgress] using (startLine_gains hc).frame [block.close]

/-- A run of lines holds on to every plain one. -/
theorem readLines_gains (current : Option OpenBlock) (lines : List Text) :
    Gains (lines.filter isPlainLine) (inProgress current)
      ((readLines current lines).1 ++ inProgress (readLines current lines).2) := by
  induction lines generalizing current with
  | nil => exact Gains.refl _
  | cons line lines ih =>
    have h := (readLine_gains current line).trans ((ih (readLine current line).2).frame
      (readLine current line).1)
    have hf : plainPart line ++ lines.filter isPlainLine = (line :: lines).filter isPlainLine := by
      rw [plainPart, ← List.filter_append, List.singleton_append]
    rw [← hf]
    simpa [readLines] using h

theorem count_coe (x : Text) (l : List Text) : (l : Multiset Text).count x = l.count x := by
  rw [Multiset.coe_count]
  congr
  exact lawful_beq_subsingleton _ _

/-- **Reading neither loses nor invents text.** The plain lines of a page are among the strings of
its text tokens, font tokens and headings, each as often as it stands in the page; and the strings
of its text tokens that are not empty are among its plain lines. -/
theorem plainLines_conserved (page : Text) :
    (plainLines page : Multiset Text) ≤ held (tokens page) ∧
      ((texts (tokens page)).filter (fun t => !t.isEmpty) : Multiset Text) ≤ plainLines page := by
  have h : Gains (plainLines page) [] (tokens page) := readLines_gains none page.lines
  have h0 : (plainLines page).count [] = 0 := by
    simp [plainLines, isPlainLine, List.count_eq_zero]
  simp only [Multiset.le_iff_count, count_coe]
  constructor
  · intro x
    by_cases hx : x = []
    · subst hx
      omega
    · simpa using (h x hx).1
  · intro x
    by_cases hx : x = []
    · subst hx
      have : ((texts (tokens page)).filter fun t => !t.isEmpty).count [] = 0 := by
        simp [List.count_eq_zero]
      omega
    · calc ((texts (tokens page)).filter fun t => !t.isEmpty).count x
          ≤ (texts (tokens page)).count x := List.filter_sublist.count_le x
        _ ≤ (plainLines page).count x := by simpa using (h x hx).2

end TextPager.Man
