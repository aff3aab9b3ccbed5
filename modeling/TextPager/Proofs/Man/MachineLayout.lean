import TextPager.Proofs.Man.RunningText
import TextPager.Proofs.Text.MachineFilling

/-!
# Laying out paragraphs with machine words

A page of paragraphs is laid out once more, with the differences and sums of columns checked: the
columns right of the margin, those right of an indent, and those of the lines being filled. A margin
is held back at the limit of machine words and at zero, so shifts of the margin never fail. Nothing
else fails either, however far shifts and indents reach, because a margin and an indent always leave
a column.

**Results.**
* `paragraphLines?_eq`, `Token.layout?_eq`: a paragraph is set without a failure.
* `renderFrom?_eq`, `render?_eq`: so is a page.
-/
namespace TextPager.Man

/-- A paragraph filled beside its indent. -/
def paragraphLines? (tags : List Text) (body : Text) (width indent : Nat) : Option (List Text) := do
  let last ← checkedSub width 1
  let indent := min indent last
  let columns ← checkedSub width indent
  let lines ← body.wrap? columns
  some (tagLines (tags.filter (!·.isBlank)) lines indent)

namespace Token

/-- The lines a paragraph is set in. -/
def layout? (s : Styles) (width indent : Nat) : Token → Option (List Text)
  | paragraph cs => paragraphLines? [] (Text.joinWords (phrases s cs width)) width defaultIndent
  | indented tag i cs =>
    paragraphLines? tag.toList (Text.joinWords (phrases s cs width)) width (i.getD indent)
  | tagged tags i cs =>
    paragraphLines? (phrases s tags width) (Text.joinWords (phrases s cs width)) width
      (i.getD indent)
  | t => some (t.layout s width indent)

/-- The text of one token right of the margin. -/
def render? (s : Styles) (width margin indent : Nat) (t : Token) : Option Text := do
  let last ← checkedSub width 1
  let margin := min margin last
  let columns ← checkedSub width margin
  let ls ← t.layout? s columns indent
  some (withMargin margin (Text.ended ls) ++ (if t.isBlock && !ls.isEmpty then ['\n'] else []))

end Token

/-- Tokens set one after the other, from a margin and an indent. -/
def renderFrom? (s : Styles) (width : Nat) : Nat → Nat → List Token → Option Text
  | _, _, [] => some []
  | margin, indent, .shiftIn step :: ts =>
    renderFrom? s width (min (margin + step) (wordLimit - 1)) indent ts
  | margin, indent, .shiftOut step :: ts => renderFrom? s width (margin - step) indent ts
  | margin, indent, t :: ts => do
    let text ← t.render? s width (t.marginAt margin) indent
    let rest ← renderFrom? s width (t.marginAt margin) (t.indentAfter indent) ts
    some (text ++ rest)

/-- The text of a page. -/
def render? (s : Styles) (width : Nat) (tokens : List Token) : Option Text := do
  let text ← renderFrom? s (max width 1) 0 defaultIndent tokens
  some (text ++ footText tokens (max width 1))

variable {s : Styles} {width : Nat}

theorem paragraphLines?_eq (hw : 0 < width) {body : Text} (h : body.FitsString) (tags : List Text)
    (indent : Nat) :
    paragraphLines? tags body width indent = some (paragraphLines tags body width indent) := by
  have hindent : min indent (width - 1) ≤ width := by omega
  simp [paragraphLines?, paragraphLines, checkedSub_eq hw, checkedSub_eq hindent, Text.wrap?_eq h]

namespace Token

theorem layout?_eq (hw : 0 < width) {t : Token} (ht : t.Flowing) (hbody : (t.body s).FitsString)
    (indent : Nat) : t.layout? s width indent = some (t.layout s width indent) := by
  have hjoin : ∀ cs : List Token, (∀ t ∈ cs, t.Running Clean) →
      Text.joinWords (phrases s cs width) = prose s cs := by
    intro cs hcs
    rw [phrases_of_running hcs, prose]
  cases t with
  | paragraph cs =>
    rw [layout?, Token.layout, hjoin cs ht]
    exact paragraphLines?_eq hw hbody _ _
  | indented tag i cs =>
    rw [layout?, Token.layout, hjoin cs ht.2]
    exact paragraphLines?_eq hw hbody _ _
  | tagged tags i cs =>
    rw [layout?, Token.layout, hjoin cs ht.2]
    exact paragraphLines?_eq hw hbody _ _
  | _ => rfl

theorem render?_eq (hw : 0 < width) {t : Token} (ht : t.Flowing) (hbody : (t.body s).FitsString)
    (margin indent : Nat) :
    t.render? s width margin indent = some (t.render s width margin indent) := by
  have hmargin : min margin (width - 1) ≤ width := by omega
  have hcolumns : 0 < width - min margin (width - 1) := by omega
  simp [Token.render?, Token.render, checkedSub_eq hw, checkedSub_eq hmargin,
    layout?_eq hcolumns ht hbody]

end Token

theorem renderFrom?_eq (hw : 0 < width) {ts : List Token} (hts : ∀ t ∈ ts, t.Flowing)
    (hbody : ∀ t ∈ ts, (t.body s).FitsString) (margin indent : Nat) :
    renderFrom? s width margin indent ts = some (renderFrom s width margin indent ts) := by
  induction ts generalizing margin indent with
  | nil => rfl
  | cons t ts ih =>
    obtain ⟨ht, hts⟩ := List.forall_mem_cons.1 hts
    obtain ⟨hb, hbody⟩ := List.forall_mem_cons.1 hbody
    have hrest := ih hts hbody
    -- A token that is set is followed by what is set after it.
    have hset : ∀ m, ((t.render? s width m indent).bind fun text =>
        (renderFrom? s width m (t.indentAfter indent) ts).bind fun rest => some (text ++ rest)) =
        some (t.render s width m indent ++ renderFrom s width m (t.indentAfter indent) ts) := by
      intro m
      rw [Token.render?_eq hw ht hb, Option.bind_some, hrest, Option.bind_some]
    cases t with
    | shiftIn step => exact hrest _ _
    | shiftOut step => exact hrest _ _
    | _ => exact hset _

/-- A page of paragraphs is laid out without a failure. -/
theorem render?_eq {ts : List Token} (hts : ∀ t ∈ ts, t.Flowing)
    (hbody : ∀ t ∈ ts, (t.body s).FitsString) (width : Nat) :
    render? s width ts = some (render s width ts) := by
  rw [render?, renderFrom?_eq (by omega) hts hbody, Option.bind_eq_bind, Option.bind_some, render]

end TextPager.Man
