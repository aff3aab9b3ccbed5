import TextPager.Man.Layout
import TextPager.Proofs.Text.Words

/-!
# The lines of a page

A page is text, and the margin of a token is put into that text. Seen as lines it is simpler: each
token is placed at a margin and an indent that depend on the tokens before it only (`placed`), it
is set in lines, and each line that is not blank stands after the margin. The page is these lines,
each ended.

**Results.**
* `withMargin_ended`: a margin put into lines is a margin before each line.
* `renderFrom_eq`: the page is the lines of its placed tokens.
* `placed_append`, `renderFrom_append`: tokens after others are set where these leave off.
* `footText_of_no_title`, `render_of_no_title`: without a title a page has no foot.
-/
namespace TextPager.Man

/-- A line right of a margin; a blank line stays as it is. -/
def putMargin (margin : Nat) (line : Text) : Text :=
  if line.isBlank then line else Text.spaces margin ++ line

/-- Lines right of a margin. A line that holds newlines is several. -/
def marginLines (margin : Nat) (ls : List Text) : List Text :=
  (ls.flatMap (Text.piecesAt '\n')).map (putMargin margin)

/-- Ended lines and a text after them are cut at the line ends. -/
theorem piecesAt_ended_append (ls : List Text) (t : Text) :
    (Text.ended ls ++ t).piecesAt '\n' = ls.flatMap (Text.piecesAt '\n') ++ t.piecesAt '\n' := by
  induction ls with
  | nil => rfl
  | cons l ls ih =>
    rw [Text.ended_cons, List.append_assoc, List.cons_append, Text.piecesAt_append_cons, ih,
      List.flatMap_cons, List.append_assoc]

theorem piecesAt_ended (ls : List Text) :
    (Text.ended ls).piecesAt '\n' = ls.flatMap (Text.piecesAt '\n') ++ [[]] := by
  have hnil : Text.piecesAt '\n' [] = [[]] := rfl
  rw [← hnil, ← piecesAt_ended_append, List.append_nil]

theorem flatMap_piecesAt {ls : List Text} (h : ∀ l ∈ ls, '\n' ∉ l) :
    ls.flatMap (Text.piecesAt '\n') = ls := by
  induction ls with
  | nil => rfl
  | cons l ls ih =>
    obtain ⟨hl, hls⟩ := List.forall_mem_cons.1 h
    rw [List.flatMap_cons, Text.piecesAt_of_not_mem hl, ih hls, List.singleton_append]

/-- Lines, each ended, are read back but for the carriage returns at their ends. -/
theorem lines_ended {ls : List Text} (h : ∀ l ∈ ls, '\n' ∉ l) :
    (Text.ended ls).lines = ls.map Text.dropReturn := by
  rw [Text.lines, piecesAt_ended, flatMap_piecesAt h]
  simp

/-- Lines, each ended, tell which lines they are. -/
theorem ended_inj {a b : List Text} (ha : ∀ l ∈ a, '\n' ∉ l) (hb : ∀ l ∈ b, '\n' ∉ l)
    (h : Text.ended a = Text.ended b) : a = b := by
  have hp := congrArg (Text.piecesAt '\n') h
  rw [piecesAt_ended, piecesAt_ended, flatMap_piecesAt ha, flatMap_piecesAt hb] at hp
  exact List.append_cancel_right hp

theorem marginLines_eq {ls : List Text} (h : ∀ l ∈ ls, '\n' ∉ l) (margin : Nat) :
    marginLines margin ls = ls.map (putMargin margin) := by
  rw [marginLines, flatMap_piecesAt h]

theorem newline_not_mem_marginLines {margin : Nat} {ls : List Text} {l : Text}
    (h : l ∈ marginLines margin ls) : '\n' ∉ l := by
  obtain ⟨piece, hpiece, rfl⟩ := List.mem_map.1 h
  obtain ⟨line, -, hmem⟩ := List.mem_flatMap.1 hpiece
  have hnone : '\n' ∉ piece := fun hc => by simpa using Text.not_mem_of_mem_pieces hmem hc
  unfold putMargin
  split
  · exact hnone
  · intro hc
    rcases List.mem_append.1 hc with hc | hc
    · exact absurd (List.eq_of_mem_replicate hc) (by decide)
    · exact hnone hc

theorem joinLines_concat_nil (ls : List Text) : Text.joinLines (ls ++ [[]]) = Text.ended ls := by
  induction ls with
  | nil => rfl
  | cons l ls ih =>
    rw [Text.ended_cons, ← ih]
    cases ls with
    | nil => simp [Text.joinLines_cons_cons]
    | cons m ls => simp [Text.joinLines_cons_cons]

theorem withMargin_ended (margin : Nat) (ls : List Text) :
    withMargin margin (Text.ended ls) = Text.ended (marginLines margin ls) := by
  have hnil : putMargin margin [] = [] := rfl
  have hmap : withMargin margin (Text.ended ls) =
      Text.joinLines (((Text.ended ls).piecesAt '\n').map (putMargin margin)) := rfl
  rw [hmap, piecesAt_ended, List.map_append, List.map_singleton, hnil, joinLines_concat_nil]
  rfl

theorem ended_append (a b : List Text) : Text.ended (a ++ b) = Text.ended a ++ Text.ended b := by
  simp [Text.ended]

/-- A token with the margin and the indent it is set at. -/
structure Placed where
  margin : Nat
  indent : Nat
  token : Token

/-- Tokens where they are set, from a margin and an indent. Shifts are not set. -/
def placed : Nat → Nat → List Token → List Placed
  | _, _, [] => []
  | margin, indent, .shiftIn step :: ts => placed (min (margin + step) (wordLimit - 1)) indent ts
  | margin, indent, .shiftOut step :: ts => placed (margin - step) indent ts
  | margin, indent, t :: ts =>
    ⟨t.marginAt margin, indent, t⟩ :: placed (t.marginAt margin) (t.indentAfter indent) ts

/-- The margin and the indent that tokens leave to the tokens after them. -/
def placeAfter : Nat → Nat → List Token → Nat × Nat
  | margin, indent, [] => (margin, indent)
  | margin, indent, .shiftIn step :: ts =>
    placeAfter (min (margin + step) (wordLimit - 1)) indent ts
  | margin, indent, .shiftOut step :: ts => placeAfter (margin - step) indent ts
  | margin, indent, t :: ts => placeAfter (t.marginAt margin) (t.indentAfter indent) ts

/-- Tokens after others are set where these leave off. -/
theorem placed_append (ts us : List Token) (margin indent : Nat) :
    placed margin indent (ts ++ us) = placed margin indent ts ++
      placed (placeAfter margin indent ts).1 (placeAfter margin indent ts).2 us := by
  induction ts generalizing margin indent with
  | nil => rfl
  | cons t ts ih => cases t <;> simp only [List.cons_append, placed, placeAfter, ih]

theorem mem_placed {ts : List Token} {margin indent : Nat} {p : Placed}
    (h : p ∈ placed margin indent ts) : p.token ∈ ts := by
  induction ts generalizing margin indent with
  | nil => cases h
  | cons t ts ih =>
    have hset : ∀ m, p ∈ ⟨m, indent, t⟩ :: placed m (t.indentAfter indent) ts →
        p.token ∈ t :: ts := by
      intro m hp
      rcases List.mem_cons.1 hp with rfl | hp
      · exact List.mem_cons_self
      · exact List.mem_cons_of_mem _ (ih hp)
    cases t with
    | shiftIn step => exact List.mem_cons_of_mem _ (ih h)
    | shiftOut step => exact List.mem_cons_of_mem _ (ih h)
    | _ => exact hset _ h

namespace Placed

/-- The margin on a page of so many columns; one column is left for the text. -/
def edge (width : Nat) (p : Placed) : Nat := min p.margin (width - 1)

/-- The lines of the token in the columns right of its margin. -/
def inner (s : Styles) (width : Nat) (p : Placed) : List Text :=
  p.token.layout s (width - p.edge width) p.indent

/-- The lines of the token on the page. A block that sets any line ends with a blank one. -/
def lines (s : Styles) (width : Nat) (p : Placed) : List Text :=
  marginLines (p.edge width) (p.inner s width) ++
    if p.token.isBlock && !(p.inner s width).isEmpty then [[]] else []

theorem render_eq (s : Styles) (width : Nat) (p : Placed) :
    p.token.render s width p.margin p.indent = Text.ended (p.lines s width) := by
  have hblank : ∀ b : Bool, (if b = true then ['\n'] else []) =
      Text.ended (if b = true then [[]] else []) := by decide
  rw [Token.render, withMargin_ended, lines, ended_append, hblank]
  rfl

theorem newline_not_mem_lines {s : Styles} {width : Nat} {p : Placed} {l : Text}
    (h : l ∈ p.lines s width) : '\n' ∉ l := by
  rcases List.mem_append.1 h with h | h
  · exact newline_not_mem_marginLines h
  · split at h
    · rw [List.mem_singleton.1 h]
      exact List.not_mem_nil
    · cases h

end Placed

/-- The page is the lines of its placed tokens. -/
theorem renderFrom_eq (s : Styles) (width : Nat) (ts : List Token) (margin indent : Nat) :
    renderFrom s width margin indent ts =
      Text.ended ((placed margin indent ts).flatMap (Placed.lines s width)) := by
  induction ts generalizing margin indent with
  | nil => rfl
  | cons t ts ih =>
    have hset : ∀ m, t.render s width m indent ++ renderFrom s width m (t.indentAfter indent) ts =
        Text.ended ((⟨m, indent, t⟩ :: placed m (t.indentAfter indent) ts).flatMap
          (Placed.lines s width)) := by
      intro m
      rw [ih, List.flatMap_cons, ended_append, ← Placed.render_eq]
    cases t with
    | shiftIn step => exact ih _ _
    | shiftOut step => exact ih _ _
    | _ => exact hset _

theorem renderFrom_append (s : Styles) (width : Nat) (ts us : List Token) (margin indent : Nat) :
    renderFrom s width margin indent (ts ++ us) = renderFrom s width margin indent ts ++
      renderFrom s width (placeAfter margin indent ts).1 (placeAfter margin indent ts).2 us := by
  simp only [renderFrom_eq, placed_append, List.flatMap_append, ended_append]

/-! ## The foot of the page -/

/-- Tokens without a title have no say in the foot of the page. -/
theorem footText_append {ts : List Token} (h : ∀ t ∈ ts, t.title? = none) (us : List Token)
    (width : Nat) : footText (ts ++ us) width = footText us width := by
  rw [footText, List.filterMap_append, List.filterMap_eq_nil_iff.2 h, List.nil_append]
  rfl

/-- Without a title a page has no foot. -/
theorem footText_of_no_title {ts : List Token} (h : ∀ t ∈ ts, t.title? = none) (width : Nat) :
    footText ts width = [] := by
  rw [← List.append_nil ts, footText_append h]
  rfl

/-- Without a title the page is the lines of its placed tokens. -/
theorem render_of_no_title {ts : List Token} (h : ∀ t ∈ ts, t.title? = none) (s : Styles)
    {width : Nat} (hw : 1 ≤ width) :
    render s width ts =
      Text.ended ((placed 0 defaultIndent ts).flatMap (Placed.lines s width)) := by
  have hmax : max width 1 = width := by omega
  rw [render, hmax, footText_of_no_title h, List.append_nil, renderFrom_eq]

end TextPager.Man
