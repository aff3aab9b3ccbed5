import TextPager.Proofs.Man.Conservation

/-!
# Reading keeps the order of lines

What a page holds is read in rendering order: a heading before its section, a tag before the body
that stands beside it. A block collects heading, tags and body apart from each other, so a line is
not always put behind the lines before it. A heading is safe: it waits for its text only while it
has no body (`OpenBlock.Orderly`). A tagged paragraph is not: it may be asked for a further tag
when it has a body already, and then the tag is put in front of lines that were read before it.

What a line does is said of `kept` strings, those among the strings of all tokens that are wanted;
for a page its plain lines are. A line opens one place among them (`Inserts`), and what stands
behind that place is passed by. All that a wanted line can pass is the body of a tagged paragraph
that waits for a tag again (`OpenBlock.behind`), so lines are out of order only where they pass one.

**Results.**
* `offer_inserts`, `startLine_adds`, `readLine_inserts`: a line is put in one place, and passes at
  most the body of a paragraph that waits for a tag.
* `readFrom_append_sublist`: lines that pass nothing are held in their order.
* `readFrom_perm`, `inTime_of_readFrom_eq`: lines that bring nothing wanted but themselves are all
  that is held; if they are distinct and in order, they passed nothing.
* `plainLines_sublist`: the plain lines of a page stay in order if no tag passes any of them, and
  distinct lines only if so; `plainLines_not_sublist_lateTagPage`: a tag that passes a line.
-/
namespace TextPager.Man

/-- The strings of tokens at every depth that are wanted, in rendering order. -/
def kept (P : Text → Bool) (ts : List Token) : List Text := (held ts).filter P

/-- What a request may bring beside its line: its arguments joined, as the text of a font or of a
heading; and the line of an unknown macro without its dot, as a heading. -/
def requestTexts (line : Text) : List Text :=
  match Request.ofLine? line with
  | some r => [Text.joinWords r.args, line.drop 1]
  | none => []

/-- The line brings no wanted string but itself. -/
def Apart (P : Text → Bool) (line : Text) : Prop := ∀ t ∈ requestTexts line, P t = false

instance (P : Text → Bool) (line : Text) : Decidable (Apart P line) :=
  inferInstanceAs (Decidable (∀ t ∈ requestTexts line, P t = false))

/-- The tokens of a line hold it if it is wanted, and no other wanted string if it brings none. -/
structure Adds (P : Text → Bool) (line : Text) (new : List Token) : Prop where
  sublist : ([line].filter P).Sublist (kept P new)
  eq_of_apart : Apart P line → kept P new = [line].filter P

/-- From strings `before` to strings `after`, one place opens and takes the line. If the line is
wanted, it is put in front of the strings `behind`, and of no others. -/
def Inserts (P : Text → Bool) (line : Text) (behind before after : List Text) : Prop :=
  ∃ front new back, before = front ++ back ∧ after = front ++ new ++ back ∧
    (P line = true → back = behind) ∧ ([line].filter P).Sublist new ∧
      (Apart P line → new = [line].filter P)

section Wanted

variable {P : Text → Bool} {line : Text}

@[simp]
theorem kept_nil : kept P [] = [] := by simp [kept]

@[simp]
theorem kept_append (a b : List Token) : kept P (a ++ b) = kept P a ++ kept P b := by
  simp [kept]

@[simp]
theorem kept_cons (t : Token) (ts : List Token) :
    kept P (t :: ts) = t.held?.toList.filter P ++ kept P t.children ++ kept P ts := by
  simp [kept]

/-- The text of a line of content that makes a request is one the request may bring. -/
theorem mem_requestTexts {r : Request} (hr : Request.ofLine? line = some r) {t : Text}
    (h : (Content.ofLine line).text? = some t) : t ∈ requestTexts line := by
  obtain ⟨keyword, args⟩ := r
  simp only [Content.ofLine, hr] at h
  simp only [requestTexts, hr]
  cases keyword with
  | font f =>
    dsimp only at h
    split at h
    · cases h
    · cases h
      exact List.mem_cons_self
  | _ =>
    cases h
    exact List.mem_cons_of_mem _ List.mem_cons_self

namespace Adds

/-- A line that is not wanted adds nothing that is, if it brings nothing. -/
theorem of_not_wanted {new : List Token} (h : P line = false)
    (hn : Apart P line → kept P new = []) : Adds P line new := by
  have h0 : [line].filter P = [] := by simp [h]
  refine ⟨?_, fun ha => (hn ha).trans h0.symm⟩
  rw [h0]
  exact List.nil_sublist _

/-- A token that holds the line, and nothing inside it. -/
theorem of_held {t : Token} (h : t.held? = some line) (hc : t.children = []) : Adds P line [t] := by
  have h0 : kept P [t] = [line].filter P := by simp [h, hc]
  exact ⟨h0 ▸ List.Sublist.refl _, fun _ => h0⟩

/-- Tokens that are added are put where they are added. -/
theorem inserts {new : List Token} (h : Adds P line new) (front : List Text)
    {back behind : List Text} (hb : P line = true → back = behind) :
    Inserts P line behind (front ++ back) (front ++ kept P new ++ back) :=
  ⟨front, kept P new, back, rfl, rfl, hb, h.sublist, h.eq_of_apart⟩

/-- Tokens that are added last. -/
theorem inserts_last {new : List Token} (h : Adds P line new) (front : List Text)
    {behind : List Text} (hb : P line = true → behind = []) :
    Inserts P line behind front (front ++ kept P new) := by
  simpa using h.inserts front fun hl => (hb hl).symm

end Adds

namespace Inserts

variable {behind before after : List Text}

theorem refl (h : P line = false) (behind a : List Text) : Inserts P line behind a a :=
  ⟨a, [], [], by simp, by simp, by simp [h], by simp [h], by simp [h]⟩

/-- Nothing is lost or moved. -/
theorem sublist (h : Inserts P line behind before after) : before.Sublist after := by
  obtain ⟨front, new, back, rfl, rfl, -⟩ := h
  rw [List.append_assoc]
  exact (List.sublist_append_right new back).append_left front

/-- With nothing to pass, the line is put behind all there was. -/
theorem append_sublist (h : Inserts P line behind before after)
    (hb : P line = true → behind = []) : (before ++ [line].filter P).Sublist after := by
  cases hl : P line with
  | false => simpa [hl] using h.sublist
  | true =>
    obtain ⟨front, new, back, rfl, rfl, hback, hs, -⟩ := h
    rw [hback hl, hb hl, List.append_nil, List.append_nil]
    simpa [hl] using hs.append_left front

theorem eq_append (h : Inserts P line behind before after) (ha : Apart P line)
    (hb : P line = true → behind = []) : after = before ++ [line].filter P := by
  obtain ⟨front, new, back, rfl, rfl, hback, -, hn⟩ := h
  rw [hn ha]
  cases hl : P line with
  | false => simp [hl]
  | true => simp [hl, hback hl, hb hl]

theorem perm (h : Inserts P line behind before after) (ha : Apart P line) :
    after.Perm (before ++ [line].filter P) := by
  obtain ⟨front, new, back, rfl, rfl, -, -, hn⟩ := h
  rw [hn ha, List.append_assoc, List.append_assoc]
  exact List.perm_append_comm.append_left front

/-- A wanted line comes before all that it passes. -/
theorem pair_sublist (h : Inserts P line behind before after) (hl : P line = true) {x : Text}
    (hx : x ∈ behind) : x ∈ before ∧ [line, x].Sublist after := by
  obtain ⟨front, new, back, rfl, rfl, hb, hs, -⟩ := h
  obtain rfl := hb hl
  have hline : [line].Sublist new := by simpa [hl] using hs
  have hpair := hline.append (List.singleton_sublist.2 hx)
  rw [List.append_assoc]
  exact ⟨List.mem_append_right _ hx, hpair.trans (List.sublist_append_right _ _)⟩

end Inserts

/-- Only plain lines are wanted. -/
def OnlyPlain (P : Text → Bool) : Prop := ∀ t, P t = true → isPlainLine t = true

theorem OnlyPlain.not_wanted (hP : OnlyPlain P) (h : plainPart line = []) : P line = false := by
  refine Bool.eq_false_iff.2 fun hl => ?_
  simp [plainPart, hP line hl] at h

variable (hP : OnlyPlain P)

include hP

/-! ## One line of content -/

theorem add_adds (b : Body) (line : Text) :
    ∃ new, (b.add line).tokens = b.tokens ++ new ∧ Adds P line new := by
  unfold Body.add
  cases b.pending with
  | some f => exact ⟨[.font f line], rfl, .of_held rfl rfl⟩
  | none =>
    cases hr : Request.ofLine? line with
    | none =>
      refine ⟨[.text line], ?_, .of_held rfl rfl⟩
      simp [Content.ofLine, hr, Body.push]
    | some r =>
      have hl := hP.not_wanted (plainPart_of_request hr)
      cases hcontent : Content.ofLine line with
      | text t => exact absurd hcontent (ofLine_ne_text_of_request hr t)
      | unknown t =>
        refine ⟨[.unknown t], rfl, .of_not_wanted hl fun _ => ?_⟩
        simp [Token.held?, Token.children]
      | awaiting f => exact ⟨[], by simp, .of_not_wanted hl fun _ => kept_nil⟩
      | font f t =>
        refine ⟨[.font f t], rfl, .of_not_wanted hl fun ha => ?_⟩
        have ht := ha t (mem_requestTexts hr (by rw [hcontent]; rfl))
        simp [Token.held?, Token.children, ht]

/-- A body takes a line behind all that stands in front of it. -/
theorem body_inserts (b : Body) (line : Text) (front : List Text) :
    Inserts P line [] (front ++ kept P b.tokens) (front ++ kept P (b.add line).tokens) := by
  obtain ⟨new, hn, ha⟩ := add_adds hP b line
  rw [hn, kept_append, ← List.append_assoc]
  exact ha.inserts_last _ fun _ => rfl

theorem synopsis_inserts {s s' : OpenSynopsis} (h : s.offer line = some s') (front : List Text) :
    Inserts P line [] (front ++ kept P s.body.tokens) (front ++ kept P s'.body.tokens) := by
  have pushed : ∀ {r : Request} (t : Token), Request.ofLine? line = some r → kept P [t] = [] →
      Inserts P line [] (front ++ kept P s.body.tokens)
        (front ++ kept P (s.body.push t).tokens) := by
    intro r t hr ht
    rw [Body.push, kept_append, ht, List.append_nil]
    exact .refl (hP.not_wanted (plainPart_of_request hr)) _ _
  unfold OpenSynopsis.offer at h
  split at h
  · rename_i he
    cases h
    exact .refl (hP.not_wanted (plainPart_of_isEmpty he)) _ _
  · split at h
    · cases h
    · rename_i args hr
      cases h
      refine pushed _ hr ?_
      unfold optionToken
      split <;> simp [Token.held?, Token.children]
    · rename_i args hr
      cases h
      exact pushed _ hr (by simp [Token.held?, Token.children])
    · cases h
      exact body_inserts hP s.body line front

end Wanted

/-! ## One line offered to a block -/

namespace OpenBlock

/-- A heading that waits for its text has no body yet. -/
def Orderly : OpenBlock → Prop
  | heading _ h body inner => h = none → body.tokens = [] ∧ inner = none
  | _ => True

/-- What the next line is put in front of: the body of a paragraph that waits for a tag. -/
def behind (P : Text → Bool) : OpenBlock → List Text
  | tagged _ _ true body => kept P body.tokens
  | _ => []

theorem orderly_of_keeps {b b' : OpenBlock} {line : Text} (h : b.Orderly)
    (hk : b.offer line = .keeps b') : b'.Orderly := by
  unfold offer at hk
  split at hk <;> grind [Orderly, absorb]

end OpenBlock

theorem orderly_of_startLine {line : Text} : ∀ b ∈ (startLine line).2, b.Orderly := by
  unfold startLine
  grind [OpenBlock.Orderly, Body.empty]

/-- What may become of a block that is offered a line: it takes the line where it may, or it leaves
a line that is not wanted. -/
def Offer.Inserts (P : Text → Bool) (line : Text) (b : OpenBlock) : Offer → Prop
  | .keeps b' => Man.Inserts P line (b.behind P) (kept P [b.close]) (kept P [b'.close])
  | .closes t => Man.Inserts P line (b.behind P) (kept P [b.close]) (kept P [t])
  | .declines t => t = b.close ∧ P line = false

section Offer

variable {P : Text → Bool} (hP : OnlyPlain P) {line : Text}

include hP

/-- A body takes a line or closes with it, in a block whose strings end with those of the body. -/
theorem absorb_inserts {body : Body} (front : List Text) (resume : Body → OpenBlock)
    (hr : ∀ b : Body, kept P [(resume b).close] = front ++ kept P b.tokens)
    (hb : (resume body).behind P = []) :
    (OpenBlock.absorb body line resume).Inserts P line (resume body) := by
  unfold OpenBlock.absorb
  split
  · rename_i he
    exact .refl (hP.not_wanted (plainPart_of_isEmpty he)) _ _
  · split
    · rename_i hs
      have hs := plainPart_of_isStructural (Bool.and_eq_true_iff.1 hs).2
      exact ⟨rfl, hP.not_wanted hs⟩
    · rw [Offer.Inserts, hr, hr, hb]
      exact body_inserts hP body line front

omit hP in
theorem kept_heading (rank : HeadingRank) (h : Option Text) (body : Body)
    (inner : Option OpenSynopsis) :
    kept P [(OpenBlock.heading rank h body inner).close] =
      [h.getD []].filter P ++ kept P body.tokens ++
        inner.elim [] (fun s => kept P s.body.tokens) := by
  cases inner <;>
    simp [OpenBlock.close, OpenSynopsis.close, Body.push, Token.held?, Token.children]

/-- A heading without its text takes it from a line of content. -/
theorem heading_inserts (rank : HeadingRank) {body : Body} (hbody : body.tokens = []) :
    Inserts P line [] (kept P [(OpenBlock.heading rank none body none).close])
      (kept P [(OpenBlock.heading rank (Content.ofLine line).text? body none).close]) := by
  have hnil : P [] = false := hP.not_wanted rfl
  have h0 : [([] : Text)].filter P = [] := by simp [hnil]
  rw [kept_heading, kept_heading, hbody, Option.getD_none, h0]
  refine ⟨[], [(Content.ofLine line).text?.getD []].filter P, [], rfl, by simp, fun _ => rfl, ?_⟩
  cases hr : Request.ofLine? line with
  | none =>
    have hl : Content.ofLine line = .text line := by simp [Content.ofLine, hr]
    rw [hl]
    exact ⟨List.Sublist.refl _, fun _ => rfl⟩
  | some r =>
    have hl : [line].filter P = [] := by simp [hP.not_wanted (plainPart_of_request hr)]
    rw [hl]
    refine ⟨List.nil_sublist _, fun ha => ?_⟩
    cases ht : (Content.ofLine line).text? with
    | none => exact h0
    | some t => simp [ha t (mem_requestTexts hr ht)]

theorem heading_offer_inserts (rank : HeadingRank) (h : Option Text) (body : Body)
    (inner : Option OpenSynopsis) (ho : (OpenBlock.heading rank h body inner).Orderly) :
    (OpenBlock.offer (.heading rank h body inner) line).Inserts P line
      (.heading rank h body inner) := by
  cases inner with
  | some s =>
    simp only [OpenBlock.offer]
    split
    · rename_i s' hs
      have hg := synopsis_inserts hP hs ([h.getD []].filter P ++ kept P body.tokens)
      rw [Offer.Inserts, kept_heading, kept_heading]
      exact hg
    · rename_i hs
      exact .refl (hP.not_wanted (plainPart_of_offer_none hs)) _ _
  | none =>
    cases h with
    | none =>
      simp only [OpenBlock.offer]
      split
      · rename_i he
        exact .refl (hP.not_wanted (plainPart_of_isEmpty he)) _ _
      · split
        · rename_i hs
          exact ⟨rfl, hP.not_wanted (plainPart_of_isStructural hs)⟩
        · exact heading_inserts hP rank (ho rfl).1
    | some h =>
      simp only [OpenBlock.offer]
      split
      · rename_i args hr
        have hl := hP.not_wanted (plainPart_of_request hr)
        rw [Offer.Inserts, kept_heading, kept_heading]
        exact .refl hl _ _
      · refine absorb_inserts hP ([h].filter P) _ (fun b => ?_) rfl
        rw [kept_heading, Option.elim_none, List.append_nil, Option.getD_some]

/-- A paragraph without a tag stands under an empty text, which is not wanted. -/
theorem kept_tagged (indent : Option Nat) (tags : Body) (awaits : Bool) (body : Body) :
    kept P [(OpenBlock.tagged indent tags awaits body).close] =
      kept P tags.tokens ++ kept P body.tokens := by
  have hnil : P [] = false := hP.not_wanted rfl
  rw [OpenBlock.close]
  cases htags : tags.tokens <;> simp [Token.held?, Token.children, hnil]

theorem tagged_offer_inserts (indent : Option Nat) (tags : Body) (awaits : Bool) (body : Body) :
    (OpenBlock.offer (.tagged indent tags awaits body) line).Inserts P line
      (.tagged indent tags awaits body) := by
  cases awaits with
  | true =>
    simp only [OpenBlock.offer]
    split
    · rename_i hk
      refine .refl (hP.not_wanted ?_) _ _
      rcases Bool.or_eq_true_iff.1 hk with he | hk
      · exact plainPart_of_isEmpty he
      · exact plainPart_of_keyword (by simpa using hk)
    · split
      · rename_i hs
        exact ⟨rfl, hP.not_wanted (plainPart_of_isStructural hs)⟩
      · -- The tag is put behind the tags, in front of the body.
        obtain ⟨new, hn, ha⟩ := add_adds hP tags line
        rw [Offer.Inserts, kept_tagged hP, kept_tagged hP, hn, kept_append]
        exact ha.inserts _ fun _ => rfl
  | false =>
    simp only [OpenBlock.offer]
    split
    · rename_i hk
      have hl := hP.not_wanted (plainPart_of_keyword (by simpa using hk))
      rw [Offer.Inserts, kept_tagged hP, kept_tagged hP]
      exact .refl hl _ _
    · exact absorb_inserts hP _ _ (fun b => kept_tagged hP indent tags false b) rfl

/-- A line offered to an open block is put in one place, or is left to what comes next. -/
theorem offer_inserts (b : OpenBlock) (ho : b.Orderly) (line : Text) :
    (b.offer line).Inserts P line b := by
  cases b with
  | heading rank h body inner => exact heading_offer_inserts hP rank h body inner ho
  | paragraph body =>
    refine absorb_inserts hP [] _ (fun b => ?_) rfl
    simp [OpenBlock.close, Token.held?, Token.children]
  | indented tag indent body =>
    refine absorb_inserts hP [] _ (fun b => ?_) rfl
    simp [OpenBlock.close, Token.held?, Token.children]
  | tagged indent tags awaits body => exact tagged_offer_inserts hP indent tags awaits body
  | verbatim body =>
    simp only [OpenBlock.offer]
    split
    · rename_i hk
      exact .refl (hP.not_wanted (plainPart_of_keyword (by simpa using hk))) _ _
    · split
      · rename_i hs
        exact ⟨rfl, hP.not_wanted (plainPart_of_isStructural hs)⟩
      · have hb := body_inserts hP body line []
        simpa [Offer.Inserts, OpenBlock.close, OpenBlock.behind, Token.held?, Token.children]
          using hb
  | synopsis s =>
    simp only [OpenBlock.offer]
    split
    · rename_i s' hs
      have hb := synopsis_inserts hP hs []
      simpa [Offer.Inserts, OpenBlock.close, OpenSynopsis.close, OpenBlock.behind, Token.held?,
        Token.children] using hb
    · rename_i hs
      exact .refl (hP.not_wanted (plainPart_of_offer_none hs)) _ _
  | link kind address body =>
    simp only [OpenBlock.offer]
    split
    · rename_i args hr
      have hl := hP.not_wanted (plainPart_of_request hr)
      simpa [Offer.Inserts, OpenBlock.close, Token.held?, Token.children] using Inserts.refl hl _ _
    · split
      · rename_i he
        exact .refl (hP.not_wanted (plainPart_of_isEmpty he)) _ _
      · split
        · rename_i hs
          exact ⟨rfl, hP.not_wanted (plainPart_of_isStructural hs)⟩
        · have hb := body_inserts hP body line []
          simpa [Offer.Inserts, OpenBlock.close, OpenBlock.behind, Token.held?, Token.children]
            using hb
  | font f =>
    have hnil : P [] = false := hP.not_wanted rfl
    have hnew : Adds P line [.font f line] := .of_held rfl rfl
    have hb := hnew.inserts_last [] fun _ => rfl
    simpa [Offer.Inserts, OpenBlock.offer, OpenBlock.close, OpenBlock.behind, Token.held?,
      Token.children, hnil] using hb

/-- A line read while no block is open. -/
theorem startLine_adds (line : Text) :
    Adds P line ((startLine line).1 ++ inProgress (startLine line).2) := by
  have hnil : P [] = false := hP.not_wanted rfl
  cases hr : Request.ofLine? line with
  | none =>
    have hs : startLine line = ([.text line], none) := by simp [startLine, hr]
    rw [hs]
    exact .of_held rfl rfl
  | some r =>
    refine .of_not_wanted (hP.not_wanted (plainPart_of_request hr)) fun ha => ?_
    have hcontent : ∀ t, (Content.ofLine line).text? = some t → P t = false := fun t ht =>
      ha t (mem_requestTexts hr ht)
    obtain ⟨keyword, args⟩ := r
    have hargs : P (Text.joinWords args) = false := ha _ (by simp [requestTexts, hr])
    simp only [startLine, hr]
    cases keyword with
    | heading rank =>
      show kept P [(OpenBlock.heading rank _ .empty none).close] = []
      rw [kept_heading]
      split <;> simp [Body.empty, hnil, hargs]
    | option =>
      rcases args with _ | ⟨a, _ | ⟨b, args⟩⟩ <;>
        simp [optionToken, inProgress, Token.held?, Token.children]
    | font _ | unknown =>
      cases hl : Content.ofLine line with
      | text t => exact absurd hl (ofLine_ne_text_of_request hr t)
      | unknown t => simp [inProgress, Token.held?, Token.children]
      | font f t =>
        have ht := hcontent t (by rw [hl]; rfl)
        simp [inProgress, Token.held?, Token.children, ht]
      | awaiting f => simp [inProgress, OpenBlock.close, Token.held?, Token.children, hnil]
    | _ =>
      simp [inProgress, OpenBlock.close, OpenSynopsis.close, OpenSynopsis.ofArgs, Body.empty,
        Token.held?, Token.children, hnil]

end Offer

/-! ## Runs of lines -/

/-- What the next line is put in front of, if a block is open. -/
def behindOf (P : Text → Bool) (current : Option OpenBlock) : List Text :=
  current.elim [] (OpenBlock.behind P)

theorem filter_cons_eq (P : Text → Bool) (line : Text) (lines : List Text) :
    (line :: lines).filter P = [line].filter P ++ lines.filter P := by
  rw [← List.filter_append, List.singleton_append]

/-- No wanted line is put in front of wanted strings. -/
def inTime (P : Text → Bool) : Option OpenBlock → List Text → Bool
  | _, [] => true
  | current, line :: lines =>
    (!P line || (behindOf P current).isEmpty) && inTime P (readLine current line).2 lines

theorem readLine_orderly {current : Option OpenBlock} (ho : ∀ b ∈ current, b.Orderly)
    (line : Text) : ∀ b ∈ (readLine current line).2, b.Orderly := by
  cases hc : isComment line with
  | true => simpa [readLine, hc] using ho
  | false =>
    cases current with
    | none => simpa [readLine, hc] using orderly_of_startLine
    | some block =>
      cases h : block.offer line with
      | keeps b => simpa [readLine, hc, h] using OpenBlock.orderly_of_keeps (ho block rfl) h
      | closes t => simp [readLine, hc, h]
      | declines t => simpa [readLine, hc, h] using orderly_of_startLine

/-- Of two distinct strings only one comes first. -/
theorem not_swapped {x y : Text} {l : List Text} (h : l.Nodup) (hxy : [x, y].Sublist l)
    (hyx : [y, x].Sublist l) : False := by
  obtain ⟨a, b, rfl, hx, hy⟩ := List.cons_sublist_iff.1 hxy
  have hapart := (List.nodup_append.1 h).2.2
  obtain ⟨_ | ⟨z, front⟩, back, he, hfront, hback⟩ := List.sublist_append_iff.1 hyx
  · -- Both are in the second part, but `x` is in the first.
    rw [List.nil_append] at he
    rw [← he] at hback
    exact hapart x hx x (hback.subset (by simp)) rfl
  · obtain rfl : y = z := (List.cons.inj he).1
    exact hapart y (hfront.subset List.mem_cons_self) y (List.singleton_sublist.1 hy) rfl

section Runs

variable {P : Text → Bool} (hP : OnlyPlain P) {current : Option OpenBlock}
  (ho : ∀ b ∈ current, b.Orderly)

include hP ho

/-- One line, offered to the open block first. -/
theorem readLine_inserts (line : Text) :
    Inserts P line (behindOf P current) (kept P (inProgress current))
      (kept P ((readLine current line).1 ++ inProgress (readLine current line).2)) := by
  cases hc : isComment line with
  | true =>
    have hl := hP.not_wanted (plainPart_of_isComment hc)
    simpa [readLine, hc] using Inserts.refl hl _ _
  | false =>
    cases current with
    | none =>
      have hs : readLine none line = startLine line := by simp [readLine, hc]
      rw [hs]
      exact (startLine_adds hP line).inserts_last [] fun _ => rfl
    | some block =>
      have hoffer := offer_inserts hP block (ho block rfl) line
      cases h : block.offer line with
      | keeps b =>
        have hread : readLine (some block) line = ([], some b) := by simp [readLine, hc, h]
        rw [h] at hoffer
        rw [hread]
        exact hoffer
      | closes t =>
        have hread : readLine (some block) line = ([t], none) := by simp [readLine, hc, h]
        rw [h] at hoffer
        rw [hread]
        exact hoffer
      | declines t =>
        rw [h] at hoffer
        obtain ⟨rfl, hl⟩ := hoffer
        -- The line is not wanted, so it may stand anywhere.
        have hread : readLine (some block) line =
            (block.close :: (startLine line).1, (startLine line).2) := by simp [readLine, hc, h]
        rw [hread, List.cons_append, ← List.singleton_append, kept_append]
        exact (startLine_adds hP line).inserts_last _ fun h => absurd h (by simp [hl])

/-- What is held so far is held in the end, in this order. -/
theorem readFrom_sublist (lines : List Text) :
    (kept P (inProgress current)).Sublist (kept P (readFrom current lines)) := by
  induction lines generalizing current with
  | nil => simp [readFrom, readLines, inProgress]
  | cons line lines ih =>
    have hline := (readLine_inserts hP ho line).sublist
    have hlines := ih (readLine_orderly ho line)
    rw [kept_append] at hline
    rw [readFrom_cons, kept_append]
    exact hline.trans (hlines.append_left _)

/-- Lines that are read in time are held behind what was held before, in their order. -/
theorem readFrom_append_sublist {lines : List Text} (h : inTime P current lines = true) :
    (kept P (inProgress current) ++ lines.filter P).Sublist (kept P (readFrom current lines)) := by
  induction lines generalizing current with
  | nil => simp [readFrom, readLines, inProgress]
  | cons line lines ih =>
    obtain ⟨hb, hin⟩ := Bool.and_eq_true_iff.1 h
    have hnone : P line = true → behindOf P current = [] := fun hl => by simpa [hl] using hb
    have hline := (readLine_inserts hP ho line).append_sublist hnone
    have hlines := ih (readLine_orderly ho line) hin
    rw [kept_append] at hline
    rw [readFrom_cons, kept_append, filter_cons_eq, ← List.append_assoc]
    refine (hline.append_right _).trans ?_
    rw [List.append_assoc]
    exact hlines.append_left _

/-- Lines that bring nothing wanted but themselves are all that is held in the end. -/
theorem readFrom_perm {lines : List Text} (ha : ∀ line ∈ lines, Apart P line) :
    (kept P (readFrom current lines)).Perm (kept P (inProgress current) ++ lines.filter P) := by
  induction lines generalizing current with
  | nil => simp [readFrom, readLines, inProgress]
  | cons line lines ih =>
    obtain ⟨hl, hls⟩ := List.forall_mem_cons.1 ha
    have hline := (readLine_inserts hP ho line).perm hl
    have hlines := ih (readLine_orderly ho line) hls
    rw [kept_append] at hline
    rw [readFrom_cons, kept_append, filter_cons_eq, ← List.append_assoc]
    refine (hlines.append_left _).trans ?_
    rw [← List.append_assoc]
    exact hline.append_right _

/-- If distinct wanted lines are held in their order in the end, they were read in time. -/
theorem inTime_of_readFrom_eq {lines : List Text} (ha : ∀ line ∈ lines, Apart P line)
    (hn : (kept P (inProgress current) ++ lines.filter P).Nodup)
    (he : kept P (readFrom current lines) = kept P (inProgress current) ++ lines.filter P) :
    inTime P current lines = true := by
  induction lines generalizing current with
  | nil => rfl
  | cons line lines ih =>
    obtain ⟨hl, hls⟩ := List.forall_mem_cons.1 ha
    have hline := readLine_inserts hP ho line
    have hnext := readLine_orderly ho line
    have hb : P line = true → behindOf P current = [] := by
      intro hwanted
      refine List.eq_nil_iff_forall_not_mem.2 fun x hx => ?_
      -- A string that is passed comes after the line in the end, and it was there before.
      obtain ⟨hbefore, hpair⟩ := hline.pair_sublist hwanted hx
      have hlater := (readFrom_sublist hP hnext lines).append_left (kept P (readLine current line).1)
      rw [← kept_append, ← kept_append, ← readFrom_cons, he] at hlater
      have hmem : line ∈ (line :: lines).filter P :=
        List.mem_filter.2 ⟨List.mem_cons_self, hwanted⟩
      have hswap := (List.singleton_sublist.2 hbefore).append (List.singleton_sublist.2 hmem)
      exact not_swapped hn (hpair.trans hlater) hswap
    have hafter := hline.eq_append hl hb
    rw [kept_append] at hafter
    rw [filter_cons_eq, ← List.append_assoc, ← hafter, List.append_assoc] at hn he
    rw [readFrom_cons, kept_append] at he
    have hin := ih hnext hls (List.nodup_append.1 hn).2.1 (List.append_cancel_left he)
    rw [inTime, hin, Bool.and_true]
    cases hw : P line with
    | false => rfl
    | true => simp [hb hw]

end Runs

/-! ## The page -/

/-- The string is one of the plain lines of the page. -/
def isLineOf (page : Text) (t : Text) : Bool := t ∈ plainLines page

/-- No plain line is read as a tag of a paragraph that has plain lines in its body already. -/
def TagsInTime (page : Text) : Prop := inTime (isLineOf page) none page.lines = true

instance (page : Text) : Decidable (TagsInTime page) := inferInstanceAs (Decidable (_ = true))

theorem onlyPlain_isLineOf (page : Text) : OnlyPlain (isLineOf page) := fun _ h =>
  (List.mem_filter.1 (of_decide_eq_true h)).2

theorem filter_isLineOf (page : Text) : page.lines.filter (isLineOf page) = plainLines page := by
  refine List.filter_congr fun line hl => ?_
  rw [Bool.eq_iff_iff, isLineOf, decide_eq_true_iff, plainLines, List.mem_filter]
  exact and_iff_right hl

/-- Plain lines are in order among all strings if they are among the plain ones. -/
theorem sublist_kept_iff (page : Text) (ts : List Token) :
    (plainLines page).Sublist (kept (isLineOf page) ts) ↔
      (plainLines page).Sublist (held ts) := by
  refine ⟨fun h => h.trans List.filter_sublist, fun h => ?_⟩
  have hself : (plainLines page).filter (isLineOf page) = plainLines page :=
    List.filter_eq_self.2 fun t ht => decide_eq_true ht
  have hf := h.filter (isLineOf page)
  rwa [hself] at hf

/-- **Reading keeps lines in order, but for late tags.** The plain lines of a page stand among the
strings of its tokens, read in rendering order, as they stand in the page, if none of them is read
as a tag of a paragraph that has some in its body already. If they are distinct and no request
brings another of them, they stand in order only so. -/
theorem plainLines_sublist (page : Text) :
    (TagsInTime page → (plainLines page).Sublist (held (tokens page))) ∧
      ((plainLines page).Nodup → (∀ line ∈ page.lines, Apart (isLineOf page) line) →
        (plainLines page).Sublist (held (tokens page)) → TagsInTime page) := by
  have hP := onlyPlain_isLineOf page
  have ho : ∀ b ∈ (none : Option OpenBlock), b.Orderly := by simp
  have hfilter := filter_isLineOf page
  constructor
  · intro h
    have hs := readFrom_append_sublist hP ho h
    rw [hfilter] at hs
    exact (sublist_kept_iff page (tokens page)).1 hs
  · intro hn ha hs
    have hperm := readFrom_perm hP ho ha
    have hkept := (sublist_kept_iff page (tokens page)).2 hs
    rw [hfilter] at hperm
    have he : plainLines page = kept (isLineOf page) (tokens page) :=
      hkept.eq_of_length hperm.length_eq.symm
    refine inTime_of_readFrom_eq hP ho ha ?_ ?_
    · rwa [hfilter]
    · rw [hfilter]
      exact he.symm

/-- Two paragraphs, each with a further tag before its body. -/
def furtherTagsPage : Text := ".TP\na\n.TQ\n.B\nb\nc\n.TP\nd\n.TQ\ne\nf\n".toList

theorem plainLines_sublist_furtherTagsPage :
    (plainLines furtherTagsPage).Sublist (held (tokens furtherTagsPage)) ∧
      (plainLines furtherTagsPage).Nodup ∧
      (∀ line ∈ furtherTagsPage.lines, Apart (isLineOf furtherTagsPage) line) ∧
      TagsInTime furtherTagsPage := by
  have h := plainLines_sublist furtherTagsPage
  have hs := h.1 (by decide +kernel)
  have hn : (plainLines furtherTagsPage).Nodup := by decide +kernel
  have ha : ∀ line ∈ furtherTagsPage.lines, Apart (isLineOf furtherTagsPage) line := by
    decide +kernel
  exact ⟨hs, hn, ha, h.2 hn ha hs⟩

/-- A paragraph with a further tag behind its body. -/
def lateTagPage : Text := ".TP\na\nb\n.TQ\nc\n".toList

/-- The lines are distinct and no request has an argument, but the further tag is put before the
body. -/
theorem plainLines_not_sublist_lateTagPage :
    (plainLines lateTagPage).Nodup ∧
      (∀ line ∈ lateTagPage.lines, ∀ r ∈ Request.ofLine? line, ∀ a ∈ r.args,
        a ∉ plainLines lateTagPage) ∧
      ¬(plainLines lateTagPage).Sublist (held (tokens lateTagPage)) := by
  decide +kernel

end TextPager.Man
