import Mathlib.Algebra.GroupWithZero.Nat
import Mathlib.Data.List.Infix
import TextPager.Proofs.Man.PageLines

/-!
# Shifted pages

Tokens between a shift of the margin and the shift back are set as they would be on a narrower
page, and moved to the right: nothing else of them changes. The reason is that the columns a token
is set in depend only on the distance between the margin and the edge of the page, also where the
margin is held back to leave a column for the text.

This needs the tokens to be set right of the shift throughout. A section goes back to the left
edge; shifts back that exceed the shifts before them would eat into the margin around them; and
the margin itself stays below a limit.

**Results.**
* `placed_shiftBy`: every token is placed further right by the shift.
* `Placed.edge_shiftBy`, `Placed.lines_shiftBy`: so are its lines, in the same columns.
* `renderFrom_shiftBy`, `render_shifted`: shifted tokens are a narrower page, moved to the right.
-/
namespace TextPager.Man

namespace Token

/-- Neither a title, which also makes the foot of the page, nor a section, which goes back to the
left edge. -/
def isShiftable : Token → Bool
  | title _ | heading .major _ _ => false
  | _ => true

theorem title?_of_isShiftable {t : Token} (h : t.isShiftable = true) : t.title? = none := by
  cases t with
  | title t => cases h
  | _ => rfl

/-- What the token adds to the margin. -/
def stepIn : Token → Nat
  | shiftIn step => step
  | _ => 0

/-- What the token takes from the margin. -/
def stepOut : Token → Nat
  | shiftOut step => step
  | _ => 0

end Token

/-- What tokens add to the margin, all together. -/
def stepsIn (ts : List Token) : Nat := (ts.map Token.stepIn).sum

/-- What tokens take from the margin, all together. -/
def stepsOut (ts : List Token) : Nat := (ts.map Token.stepOut).sum

@[simp]
theorem stepsIn_cons (t : Token) (ts : List Token) : stepsIn (t :: ts) = t.stepIn + stepsIn ts := by
  simp [stepsIn]

@[simp]
theorem stepsOut_cons (t : Token) (ts : List Token) :
    stepsOut (t :: ts) = t.stepOut + stepsOut ts := by
  simp [stepsOut]

/-! ## Margins add up -/

theorem putMargin_add (m n : Nat) (line : Text) :
    putMargin (m + n) line = putMargin m (putMargin n line) := by
  by_cases hl : line.isBlank = true
  · simp [putMargin, hl]
  · have happend : (Text.spaces n ++ line).isBlank = false := by
      simpa [Text.isBlank_append, Text.isBlank_spaces] using hl
    have hspaces : Text.spaces (m + n) = Text.spaces m ++ Text.spaces n :=
      List.replicate_append_replicate.symm
    simp [putMargin, hl, happend, hspaces]

theorem marginLines_add (m n : Nat) (ls : List Text) :
    marginLines (m + n) ls = (marginLines n ls).map (putMargin m) := by
  simp [marginLines, Function.comp_def, putMargin_add]

/-! ## Placing further right -/

namespace Placed

/-- The token placed further right. -/
def shiftBy (n : Nat) (p : Placed) : Placed := { p with margin := n + p.margin }

variable {n width : Nat}

/-- The edge of the text moves with the margin, also where it is held back. -/
theorem edge_shiftBy (hn : n < width) (p : Placed) :
    (p.shiftBy n).edge width = n + p.edge (width - n) := by
  simp only [edge, shiftBy]
  omega

/-- The token is set in the same columns. -/
theorem inner_shiftBy (s : Styles) (hn : n < width) (p : Placed) :
    (p.shiftBy n).inner s width = p.inner s (width - n) := by
  rw [inner, edge_shiftBy hn, ← Nat.sub_sub]
  rfl

/-- The lines are those of the narrower page, moved to the right. -/
theorem lines_shiftBy (s : Styles) (hn : n < width) (p : Placed) :
    (p.shiftBy n).lines s width = (p.lines s (width - n)).map (putMargin n) := by
  have hblank : ∀ b : Bool, (if b = true then [([] : Text)] else []).map (putMargin n) =
      if b = true then [[]] else [] := by
    intro b
    cases b <;> rfl
  rw [lines, lines, List.map_append, hblank, inner_shiftBy s hn, edge_shiftBy hn, marginLines_add]
  rfl

end Placed

/-- Every token is placed further right by the shift, as long as the shifts back never exceed the
margin there is and the margin stays below its limit. -/
theorem placed_shiftBy (n : Nat) {ts : List Token} (hts : ∀ t ∈ ts, t.isShiftable = true)
    {margin : Nat} (indent : Nat)
    (hback : ∀ before, before <+: ts → stepsOut before ≤ margin + stepsIn before)
    (hlimit : n + margin + stepsIn ts < wordLimit) :
    placed (n + margin) indent ts = (placed margin indent ts).map (Placed.shiftBy n) := by
  induction ts generalizing margin indent with
  | nil => rfl
  | cons t ts ih =>
    obtain ⟨ht, hrest⟩ := List.forall_mem_cons.1 hts
    have htail : ∀ before, before <+: ts →
        t.stepOut + stepsOut before ≤ margin + (t.stepIn + stepsIn before) := by
      intro before hb
      simpa using hback (t :: before) (List.cons_prefix_cons.2 ⟨rfl, hb⟩)
    rw [stepsIn_cons] at hlimit
    -- A token that is set stands at the margin as it is, and the others follow from there.
    have hset (hin : t.stepIn = 0) (hout : t.stepOut = 0) :
        placed (n + margin) (t.indentAfter indent) ts =
          (placed margin (t.indentAfter indent) ts).map (Placed.shiftBy n) :=
      ih hrest _ (fun before hb => by have := htail before hb; omega) (by omega)
    cases t with
    | shiftIn step =>
      simp only [Token.stepIn, Token.stepOut] at htail hlimit
      have hleft : min (n + margin + step) (wordLimit - 1) = n + (margin + step) := by omega
      have hright : min (margin + step) (wordLimit - 1) = margin + step := by omega
      rw [placed, placed, hleft, hright]
      exact ih hrest indent (fun before hb => by have := htail before hb; omega) (by omega)
    | shiftOut step =>
      simp only [Token.stepIn, Token.stepOut] at htail hlimit
      have hstep : step ≤ margin := by simpa [stepsIn, stepsOut] using htail [] List.nil_prefix
      have hleft : n + margin - step = n + (margin - step) := by omega
      rw [placed, placed, hleft]
      exact ih hrest indent (fun before hb => by have := htail before hb; omega) (by omega)
    | heading rank heading contents =>
      cases rank with
      | major => cases ht
      | minor => exact congrArg (List.cons _) (hset rfl rfl)
    | _ => exact congrArg (List.cons _) (hset rfl rfl)

/-- Tokens right of the shift are the page that they make in the columns left, moved to the right. -/
theorem renderFrom_shiftBy (s : Styles) {width n : Nat} (hn : n < width) {ts : List Token}
    (hts : ∀ t ∈ ts, t.isShiftable = true) (indent : Nat)
    (hback : ∀ before, before <+: ts → stepsOut before ≤ stepsIn before)
    (hlimit : stepsIn ts + n < wordLimit) :
    renderFrom s width n indent ts = withMargin n (renderFrom s (width - n) 0 indent ts) := by
  have hzero : ∀ before, before <+: ts → stepsOut before ≤ 0 + stepsIn before := by
    simpa using hback
  have hplaced : placed n indent ts = (placed 0 indent ts).map (Placed.shiftBy n) :=
    placed_shiftBy n hts indent hzero (by omega)
  have hlines : ((placed 0 indent ts).map (Placed.shiftBy n)).flatMap (Placed.lines s width) =
      ((placed 0 indent ts).flatMap (Placed.lines s (width - n))).map (putMargin n) := by
    rw [List.flatMap_map, List.map_flatMap]
    simp only [Placed.lines_shiftBy s hn]
  have hnewline : ∀ l ∈ (placed 0 indent ts).flatMap (Placed.lines s (width - n)), '\n' ∉ l := by
    intro l hl
    obtain ⟨p, -, hp⟩ := List.mem_flatMap.1 hl
    exact Placed.newline_not_mem_lines hp
  rw [renderFrom_eq, renderFrom_eq, hplaced, hlines, withMargin_ended, marginLines_eq hnewline]

/-- **A shift moves and narrows, and does nothing else.** Tokens between a shift and the shift back
are the page that they make in the columns left, with the shift before each line that is not
blank: at every width the shift leaves a column of, and with every style table. -/
theorem render_shifted (s : Styles) {width n : Nat} (hn : n < width) {ts : List Token}
    (hts : ∀ t ∈ ts, t.isShiftable = true)
    (hback : ∀ before, before <+: ts → stepsOut before ≤ stepsIn before)
    (hlimit : stepsIn ts + n < wordLimit) :
    render s width ([.shiftIn n] ++ ts ++ [.shiftOut n]) =
      withMargin n (render s (width - n) ts) := by
  have hall : ∀ t ∈ [.shiftIn n] ++ ts ++ [.shiftOut n], t.isShiftable = true := by
    simpa [or_imp, forall_and, Token.isShiftable] using hts
  have hfoot {us : List Token} (hus : ∀ t ∈ us, t.isShiftable = true) (w : Nat) :
      footText us w = [] :=
    footText_of_no_title (fun t ht => Token.title?_of_isShiftable (hus t ht)) w
  have hmargin : min (0 + n) (wordLimit - 1) = n := by omega
  have hwide : max width 1 = width := by omega
  have hnarrow : max (width - n) 1 = width - n := by omega
  calc render s width ([.shiftIn n] ++ ts ++ [.shiftOut n])
      = renderFrom s width 0 defaultIndent ([.shiftIn n] ++ ts ++ [.shiftOut n]) := by
        rw [render, hwide, hfoot hall, List.append_nil]
    _ = renderFrom s width n defaultIndent ts := by
        rw [renderFrom_append, List.singleton_append, renderFrom, hmargin]
        exact List.append_nil _
    _ = withMargin n (renderFrom s (width - n) 0 defaultIndent ts) :=
        renderFrom_shiftBy s hn hts defaultIndent hback hlimit
    _ = withMargin n (render s (width - n) ts) := by
        rw [render, hnarrow, hfoot hts, List.append_nil]

/-- A shift that leaves no room for the text, and one that does not take all of it back. -/
def crowded : List Token :=
  [.text "ab".toList, .shiftIn 9, .paragraph [.text "c d".toList], .shiftOut 7, .text [],
    .tagged [.text "e".toList] (some 2) [.text "f".toList]]

theorem render_shifted_crowded :
    3 < 8 ∧ (∀ t ∈ crowded, t.isShiftable = true) ∧
      (∀ before, before <+: crowded → stepsOut before ≤ stepsIn before) ∧
      stepsIn crowded + 3 < wordLimit ∧
      render .plain 8 ([.shiftIn 3] ++ crowded ++ [.shiftOut 3]) =
        "   ab\n       c\n       d\n\n\n     e f\n\n".toList := by
  have hts : ∀ t ∈ crowded, t.isShiftable = true := by decide
  have hback : ∀ before, before <+: crowded → stepsOut before ≤ stepsIn before := by
    have hinits : ∀ before ∈ crowded.inits, stepsOut before ≤ stepsIn before := by decide
    exact fun before hb => hinits before ((List.mem_inits before crowded).2 hb)
  have hlimit : stepsIn crowded + 3 < wordLimit := by decide +kernel
  have hpage := render_shifted .plain (by decide : 3 < 8) hts hback hlimit
  exact ⟨by decide, hts, hback, hlimit, hpage.trans (by decide +kernel)⟩

end TextPager.Man
