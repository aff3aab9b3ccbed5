import TextPager.Proofs.Viewer.ColumnWidths

/-!
# The bottom line

A message is drawn last on the bottom line, right of the commands or the prompt and left of the last
corner. Where it begins is worked out from its width, which is its number of characters modulo
`fieldLimit`. A message whose width is counted right is drawn only where the line is still bare, so
it is whole or not there. A longer one is drawn past the last corner, unless what is counted of it
has no room.

**Results.**
* `JumpError.message_visible`: a message holds no control character, whatever was typed.
* `char?_draw_border`: a cell of the border that no field covers shows the frame.
* `framed_end`: the commands end where their lengths say, or at the corner.
* `showsWhole_or_bare`: a message stands whole on the bottom line, or nothing of it is drawn.
* `char?_draw_corner_of_wrapped`: a message of a multiple of the limit begins in the last corner.
* `draw_message_intact_iff`: which messages leave the corner and are whole or not drawn.
-/
namespace TextPager

/-! ## Messages can be seen -/

theorem isControl_of_printsAlone {c : Char} (h : printsAlone c = true) : isControl c = false := by
  simp only [isControl, Bool.or_eq_false_iff, Bool.and_eq_false_iff, decide_eq_false_iff_not]
  unfold printsAlone at h
  split at h
  · simp only [Bool.and_eq_true, decide_eq_true_eq] at h
    omega
  · -- the first run of characters that do not print alone begins with the control characters
    have hfirst : (0x80, 0xA0) ∈ unprintableRuns := List.mem_cons_self
    rw [Bool.not_eq_true'] at h
    have hrun := List.any_eq_false.1 h _ hfirst
    simp only [Bool.and_eq_true, decide_eq_true_eq] at hrun
    omega

/-- A quoted character holds no control character. -/
theorem quoteChar_visible (c : Char) : (quoteChar c).Visible := by
  unfold quoteChar
  split
  · rename_i h
    rcases h with rfl | rfl <;> decide
  · repeat' split
    · decide
    · decide
    · decide
    · decide
    · rename_i h
      exact List.forall_mem_singleton.2 (isControl_of_printsAlone h)
    · have hdigits : Text.Visible (Nat.toDigits 16 c.toNat) :=
        (toDigits_ascii (by decide) (by decide) _).visible
      exact (Text.Visible.append (by decide) hdigits).append (by decide)

theorem quoted_visible (t : Text) : t.quoted.Visible := by
  refine (Text.Visible.append (by decide) fun c hc => ?_).append (by decide)
  obtain ⟨d, -, hc⟩ := List.mem_flatMap.1 hc
  exact quoteChar_visible d c hc

/-- A message holds no control character, whatever was typed. -/
theorem JumpError.message_visible (e : JumpError) : e.message.Visible := by
  have hnumber (n : Nat) : (Text.ofNat n).Visible := (ofNat_ascii n).visible
  cases e with
  | notANumber input => exact (quoted_visible input).append (by decide)
  | outOfRange target count =>
    exact ((((Text.Visible.append (by decide) (hnumber target)).append (by decide)).append
      (hnumber count)).append (by decide))

theorem Frame.field_visible {f : Frame} (hf : f.shownParts.Visible) {t : Text} (ht : t.Visible) :
    (f.field t).Visible :=
  (Text.Visible.append (List.forall_mem_singleton.2 (hf _ (by simp [shownParts]))) ht).append
    (List.forall_mem_singleton.2 (hf _ (by simp [shownParts])))

open Screen (ChangesOnly strip border)

namespace Viewer

variable {v : Viewer} {rows columns : Nat}

/-! ## The border of a drawn screen -/

theorem drawBy_eq (print : Printer) (hrows : 2 ≤ rows) (hcolumns : 2 ≤ columns) :
    v.drawBy print rows columns =
      drawLines (columns - frameColumns) ((pageSpans v.page).take (rows - frameRows))
        (frameRows / 2) (v.drawMessage print (rows - 1) columns (v.framed print rows columns).2
          (v.framed print rows columns).1) := by
  rw [← v.drawChrome_eq print hrows hcolumns]
  rfl

/-- The page is drawn inside the border. -/
theorem cell?_draw_border (hrows : 2 ≤ rows) (hcolumns : 2 ≤ columns) {y x : Nat} (hy : y < rows)
    (hx : x < columns) (hborder : border rows columns y x) :
    (v.draw rows columns).cell? y x =
      (v.drawMessage printText (rows - 1) columns (v.framed printText rows columns).2
        (v.framed printText rows columns).1).cell? y x := by
  have hout : ¬pageBox ((pageSpans v.page).take (rows - frameRows)).length
      (columns - frameColumns) y x := by
    have hlength : ((pageSpans v.page).take (rows - frameRows)).length ≤ rows - frameRows :=
      List.length_take_le ..
    simp only [pageBox, border, frameRows, frameColumns] at hlength hborder ⊢
    omega
  rw [draw, drawBy_eq printText hrows hcolumns]
  exact drawLines_changesOnly _ _ _ y x hout

/-- Title, status and footer leave the corners, the sides and the bottom line right of the footer
as the frame has them. -/
theorem cell?_framed (hf : v.frame.shownParts.Visible)
    (hstatus : (v.frame.field v.status).length < fieldLimit) (hrows : 2 ≤ rows)
    (hcolumns : 2 ≤ columns) {y x : Nat} (hy : y < rows) (hx : x < columns)
    (hbare : (x = 0 ∨ x + 1 = columns) ∨
      (y + 1 = rows ∧ (v.framed printText rows columns).2 ≤ x)) :
    (v.framed printText rows columns).1.cell? y x =
      some ⟨v.frame.charAt rows columns y x, .none⟩ := by
  have hborder : border rows columns y x := by
    simp only [border]
    omega
  rw [v.framed_changesOnly hcolumns hstatus y x (by simp only [strip]; omega)]
  exact cell?_drawFrame hf hrows hcolumns hy hx hborder

/-- The corners, but for the right one at the bottom, and the sides are the frame's whatever the
message. -/
theorem char?_draw_border (hf : v.frame.shownParts.Visible)
    (hstatus : (v.frame.field v.status).length < fieldLimit) (hrows : 2 ≤ rows)
    (hcolumns : 2 ≤ columns) {y x : Nat} (hy : y < rows) (hx : x = 0 ∨ x + 1 = columns)
    (hcorner : x = 0 ∨ y + 1 ≠ rows) :
    (v.draw rows columns).char? y x = some (v.frame.charAt rows columns y x) := by
  have hborder : border rows columns y x := .inr (.inr hx)
  have hmessage := v.drawMessage_changesOnly (rows - 1) columns (v.framed printText rows columns).2
    (v.framed printText rows columns).1 y x (by omega)
  rw [Screen.char?, cell?_draw_border hrows hcolumns hy (by omega) hborder, hmessage,
    cell?_framed hf hstatus hrows hcolumns hy (by omega) (.inl hx)]
  rfl

/-! ## Where the commands end -/

/-- Columns the commands take. -/
def hintColumns (v : Viewer) : Nat := (v.commands.flatMap fun c => v.frame.field c.label).length

/-- Commands end with the last one, or at the corner. -/
theorem drawCommands_end {f : Frame} (hf : f.shownParts.Visible) (row : Nat) {cs : List Command}
    (hcs : ∀ c ∈ cs, c.label.Ascii) (screen : Screen) {column : Nat} (hcolumn : 1 ≤ column)
    (hcorner : column ≤ columns - 1) :
    (drawCommands printText f row columns cs screen column).2 =
      min (columns - 1) (column + (cs.flatMap fun c => f.field c.label).length) := by
  induction cs generalizing screen column with
  | nil => exact (Nat.min_eq_right hcorner).symm
  | cons c cs ih =>
    have hlabel : (f.field c.label).Visible :=
      Frame.field_visible hf (hcs c List.mem_cons_self).visible
    have hend := printText_end hlabel columns row column (columns - 2 - (column - 1)) .plain screen
    have hrest : ∀ d ∈ cs, d.label.Ascii := fun d hd => hcs d (List.mem_cons_of_mem c hd)
    rw [drawCommands, ih hrest _ (by omega) (by omega), hend, List.flatMap_cons,
      List.length_append]
    omega

theorem framed_end (hf : v.frame.shownParts.Visible) (hmode : v.mode = .reading)
    (hcolumns : 2 ≤ columns) :
    (v.framed printText rows columns).2 = min (columns - 1) (1 + v.hintColumns) := by
  simp only [framed, drawFooter, hmode]
  exact drawCommands_end hf _ (fun c hc => mem_commands_ascii hc) _ (Nat.le_refl 1) (by omega)

/-! ## Messages -/

/-- The viewer without its message. -/
def silent (v : Viewer) : Viewer := { v with message := none }

/-- The message stands whole on the bottom line: it begins right of the commands or the prompt and
ends just left of the corner, the cells it covers and the one before them show the bare line of the
frame without it, and it changes no other cell. -/
def ShowsWhole (print : Printer) (v : Viewer) (e : JumpError) (rows columns : Nat) : Prop :=
  ∃ start, (v.framed print rows columns).2 < start ∧
    start + (v.frame.field e.message).length + 1 = columns ∧
    (v.drawBy print rows columns).text (rows - 1) start (columns - 1) = v.frame.field e.message ∧
    (v.silent.drawBy print rows columns).text (rows - 1) (start - 1) (columns - 1) =
      List.replicate ((v.frame.field e.message).length + 1) v.frame.bottom ∧
    ChangesOnly (strip (rows - 1) start (columns - 1)) (v.silent.drawBy print rows columns)
      (v.drawBy print rows columns)

theorem OneColumn.silent {w : CellWidths} (h : v.OneColumn w) : v.silent.OneColumn w :=
  ⟨h.frame, h.title, h.input, fun e he => by cases he⟩

/-- On one-column text a message that is whole is so however it is printed. -/
theorem OneColumn.showsWhole_iff {w : CellWidths} (h : v.OneColumn w) (hrows : 2 ≤ rows)
    (hcolumns : 2 ≤ columns) (e : JumpError) :
    v.ShowsWhole (printOn w) e rows columns ↔ v.ShowsWhole printText e rows columns := by
  simp only [ShowsWhole, h.framed_printOn, h.drawBy_printOn hrows hcolumns,
    h.silent.drawBy_printOn hrows hcolumns]
  rfl

/-- What is drawn before the message does not depend on it. -/
theorem draw_silent (hrows : 2 ≤ rows) (hcolumns : 2 ≤ columns) :
    v.silent.draw rows columns =
      drawLines (columns - frameColumns) ((pageSpans v.page).take (rows - frameRows))
        (frameRows / 2) (v.framed printText rows columns).1 :=
  drawBy_eq printText hrows hcolumns

/-- Without a message the bottom line is bare right of the commands or the prompt. -/
theorem text_silent_bare (hf : v.frame.shownParts.Visible)
    (hstatus : (v.frame.field v.status).length < fieldLimit) (hrows : 2 ≤ rows) {left n : Nat}
    (hleft : (v.framed printText rows columns).2 ≤ left) (hend : left + n + 1 = columns) :
    (v.silent.draw rows columns).text (rows - 1) left (columns - 1) =
      List.replicate n v.frame.bottom := by
  have hone : 1 ≤ (v.framed printText rows columns).2 := v.one_le_framed
  have hcolumns : 2 ≤ columns := by omega
  refine Screen.text_eq (by rw [List.length_replicate]; omega) fun i c hi => ?_
  obtain ⟨hlt, rfl⟩ : i < n ∧ v.frame.bottom = c := by simpa [List.getElem?_replicate] using hi
  have hframed : (v.framed printText rows columns).1.cell? (rows - 1) (left + i) = _ :=
    cell?_framed hf hstatus hrows hcolumns (by omega) (by omega) (.inr ⟨by omega, by omega⟩)
  have hbare : (v.silent.draw rows columns).cell? (rows - 1) (left + i) =
      (v.framed printText rows columns).1.cell? (rows - 1) (left + i) :=
    cell?_draw_border hrows hcolumns (by omega) (by omega) (.inr (.inl (by omega)))
  rw [Screen.char?, hbare, hframed]
  simp only [Option.map_some, Frame.charAt]
  rw [if_neg (by omega), if_pos (by omega), if_neg (by omega), if_neg (by omega)]

/-- A message is drawn from the column that its width leaves left of the corner on, if that is right
of the footer; otherwise it is not drawn. -/
theorem drawMessage_eq {e : JumpError} (he : v.message = some e) (row column : Nat)
    (screen : Screen) :
    v.drawMessage printText row columns column screen =
      if column < columns - 1 - fieldWidth (v.frame.field e.message) then
        (printText columns row (columns - 1 - fieldWidth (v.frame.field e.message)) columns
          (v.frame.field e.message) (Style.plain.add .justBold) screen).1
      else screen := by
  simp only [drawMessage, he]

/-- Nothing of a message is drawn if it is taken to be wider than the line right of the footer. -/
theorem draw_eq_silent (hrows : 2 ≤ rows) (hcolumns : 2 ≤ columns) {e : JumpError}
    (he : v.message = some e)
    (hroom : columns - 1 - fieldWidth (v.frame.field e.message) ≤
      (v.framed printText rows columns).2) :
    v.draw rows columns = v.silent.draw rows columns := by
  rw [draw, drawBy_eq printText hrows hcolumns, draw_silent hrows hcolumns, drawMessage_eq he,
    if_neg (by omega)]

/-- A message whose width is counted right stands whole on the bottom line, or nothing of it is
drawn. -/
theorem showsWhole_or_bare (hf : v.frame.shownParts.Visible)
    (hstatus : (v.frame.field v.status).length < fieldLimit) (hrows : 2 ≤ rows)
    (hcolumns : 2 ≤ columns) {e : JumpError} (he : v.message = some e)
    (hfit : (v.frame.field e.message).length < fieldLimit) :
    v.ShowsWhole printText e rows columns ∨ v.draw rows columns = v.silent.draw rows columns := by
  have hwidth : fieldWidth (v.frame.field e.message) = (v.frame.field e.message).length :=
    Nat.mod_eq_of_lt hfit
  by_cases hroom : columns - 1 - fieldWidth (v.frame.field e.message) ≤
      (v.framed printText rows columns).2
  · exact .inr (draw_eq_silent hrows hcolumns he hroom)
  rw [hwidth, Nat.not_le] at hroom
  have hone : 1 ≤ (v.framed printText rows columns).2 := v.one_le_framed
  obtain ⟨start, hstart⟩ : ∃ start, start = columns - 1 - (v.frame.field e.message).length :=
    ⟨_, rfl⟩
  have hdraw (column : Nat) (hcolumn : column < start) (screen : Screen) :
      v.drawMessage printText (rows - 1) columns column screen =
        (printText columns (rows - 1) start columns (v.frame.field e.message)
          (Style.plain.add .justBold) screen).1 := by
    rw [drawMessage_eq he, hwidth, ← hstart, if_pos hcolumn]
  refine .inl ⟨start, by omega, by omega, Screen.text_eq (by omega) fun i c hi => ?_,
    text_silent_bare hf hstatus hrows (by omega) (by omega), fun y x hout => ?_⟩
  · have hlt : i < (v.frame.field e.message).length := (List.getElem?_eq_some_iff.1 hi).1
    have hframed : (v.framed printText rows columns).1.cell? (rows - 1) (start + i) = _ :=
      cell?_framed hf hstatus hrows hcolumns (by omega) (by omega) (.inr ⟨by omega, by omega⟩)
    have hcell : (v.draw rows columns).cell? (rows - 1) (start + i) = _ :=
      cell?_draw_border hrows hcolumns (by omega) (by omega) (.inr (.inl (by omega)))
    rw [← draw, Screen.char?, hcell, hdraw _ (by omega),
      cell?_printText (Frame.field_visible hf e.message_visible) (by omega) (by omega) _ hi hframed]
    rfl
  · have hprint : Reaches (rows - 1) start (columns - 1) (v.framed printText rows columns).1
        (printText columns (rows - 1) start columns (v.frame.field e.message)
          (Style.plain.add .justBold) (v.framed printText rows columns).1) :=
      printText_reaches (by omega) _ _
    rw [← draw, ← draw, draw_silent hrows hcolumns, draw, drawBy_eq printText hrows hcolumns,
      cell?_drawLines, cell?_drawLines, hdraw _ (by omega), hprint.inside y x hout]

/-! ## The last corner -/

/-- Without a message the last corner is the frame's. -/
theorem cell?_silent_corner (hf : v.frame.shownParts.Visible)
    (hstatus : (v.frame.field v.status).length < fieldLimit) (hrows : 2 ≤ rows)
    (hcolumns : 2 ≤ columns) :
    (v.silent.draw rows columns).cell? (rows - 1) (columns - 1) =
      some ⟨v.frame.bottomRight, .none⟩ := by
  have hborder : border rows columns (rows - 1) (columns - 1) := .inr (.inl (by omega))
  have hchar : v.frame.charAt rows columns (rows - 1) (columns - 1) = v.frame.bottomRight := by
    unfold Frame.charAt
    rw [if_neg (by omega), if_pos (by omega), if_neg (by omega), if_pos (by omega)]
  rw [← hchar]
  exact (cell?_draw_border hrows hcolumns (by omega) (by omega) hborder).trans
    (cell?_framed hf hstatus hrows hcolumns (by omega) (by omega) (.inl (.inr (by omega))))

/-- The last corner is the frame's if every message is whole or not drawn. -/
theorem char?_draw_corner (hf : v.frame.shownParts.Visible)
    (hstatus : (v.frame.field v.status).length < fieldLimit) (hrows : 2 ≤ rows)
    (hcolumns : 2 ≤ columns)
    (hwhole : ∀ e, v.message = some e →
      v.ShowsWhole printText e rows columns ∨ v.draw rows columns = v.silent.draw rows columns) :
    (v.draw rows columns).char? (rows - 1) (columns - 1) = some v.frame.bottomRight := by
  have hsame : (v.draw rows columns).cell? (rows - 1) (columns - 1) =
      (v.silent.draw rows columns).cell? (rows - 1) (columns - 1) := by
    cases hm : v.message with
    | none => rw [show v.silent = v by rw [silent, ← hm]]
    | some e =>
      rcases hwhole e hm with ⟨start, -, -, -, -, hchanges⟩ | hbare
      · exact hchanges _ _ (by simp only [strip]; omega)
      · rw [hbare]
  rw [Screen.char?, hsame, cell?_silent_corner hf hstatus hrows hcolumns]
  rfl

/-- A message that is longer than its width is taken to be covers the last corner, if there is room
for that width right of the footer. -/
theorem cell?_draw_corner_of_wrapped (hf : v.frame.shownParts.Visible)
    (hstatus : (v.frame.field v.status).length < fieldLimit) (hrows : 2 ≤ rows) {e : JumpError}
    (he : v.message = some e)
    (hroom : (v.framed printText rows columns).2 + 1 + fieldWidth (v.frame.field e.message) <
      columns) {c : Char}
    (hc : (v.frame.field e.message)[fieldWidth (v.frame.field e.message)]? = some c) :
    (v.draw rows columns).cell? (rows - 1) (columns - 1) = some ⟨c, .justBold⟩ := by
  have hcolumns : 2 ≤ columns := by omega
  have hvisible := Frame.field_visible hf e.message_visible
  have hcorner : columns - 1 - fieldWidth (v.frame.field e.message) +
      fieldWidth (v.frame.field e.message) = columns - 1 := by omega
  have hframed : (v.framed printText rows columns).1.cell? (rows - 1) (columns - 1) = _ :=
    cell?_framed hf hstatus hrows hcolumns (by omega) (by omega) (.inl (.inr (by omega)))
  have hlimit : fieldWidth (v.frame.field e.message) < columns := by omega
  have hlast : columns - 1 - fieldWidth (v.frame.field e.message) +
      fieldWidth (v.frame.field e.message) < columns := by omega
  have hprint := cell?_printText hvisible hlimit hlast (Style.plain.add .justBold) hc
    (hcorner.symm ▸ hframed)
  rw [hcorner] at hprint
  rw [cell?_draw_border hrows hcolumns (by omega) (by omega) (.inr (.inl (by omega))),
    drawMessage_eq he, if_pos (by omega), hprint]
  rfl

/-- If its length is a multiple of the limit it begins there. -/
theorem char?_draw_corner_of_wrapped (hf : v.frame.shownParts.Visible)
    (hstatus : (v.frame.field v.status).length < fieldLimit) (hrows : 2 ≤ rows) {e : JumpError}
    (he : v.message = some e) (hwrap : (v.frame.field e.message).length % fieldLimit = 0)
    (hroom : (v.framed printText rows columns).2 + 1 < columns) :
    (v.draw rows columns).char? (rows - 1) (columns - 1) = some v.frame.rightJoin := by
  have hwidth : fieldWidth (v.frame.field e.message) = 0 := hwrap
  have hfirst : (v.frame.field e.message)[fieldWidth (v.frame.field e.message)]? =
      some v.frame.rightJoin := by rw [hwidth]; rfl
  rw [Screen.char?, cell?_draw_corner_of_wrapped hf hstatus hrows he (by omega) hfirst]
  rfl

/-- The last corner is the frame's and the message whole or not drawn, exactly if the message is
short enough for its width to be counted right, or what is counted has no room. -/
theorem draw_message_intact_iff (hf : v.frame.shownParts.Visible)
    (hstatus : (v.frame.field v.status).length < fieldLimit) (hrows : 2 ≤ rows)
    (hcolumns : 2 ≤ columns) (hlimit : columns < fieldLimit)
    (hreading : v.message ≠ none → v.mode = .reading) :
    ((v.draw rows columns).char? (rows - 1) (columns - 1) = some v.frame.bottomRight ∧
        ∀ e, v.message = some e → v.ShowsWhole printText e rows columns ∨
          v.draw rows columns = v.silent.draw rows columns) ↔
      ∀ e, v.message = some e → (v.frame.field e.message).length < fieldLimit ∨
        columns ≤ 2 + v.hintColumns + fieldWidth (v.frame.field e.message) := by
  have hend {e : JumpError} (he : v.message = some e) :
      (v.framed printText rows columns).2 = min (columns - 1) (1 + v.hintColumns) :=
    framed_end hf (hreading (by rw [he]; exact Option.some_ne_none e)) hcolumns
  constructor
  · rintro ⟨hcorner, hwhole⟩ e he
    refine Classical.byContradiction fun hlong => ?_
    rw [not_or, Nat.not_lt, Nat.not_le] at hlong
    obtain ⟨hlong, hroom⟩ := hlong
    have hlt : fieldWidth (v.frame.field e.message) < (v.frame.field e.message).length :=
      Nat.lt_of_lt_of_le (fieldWidth_lt _) hlong
    have hbold := cell?_draw_corner_of_wrapped hf hstatus hrows he (by rw [hend he]; omega)
      (List.getElem?_eq_getElem hlt)
    rcases hwhole e he with ⟨start, -, hfits, -⟩ | hbare
    · omega
    · -- the corner of the frame is not bold
      rw [hbare, cell?_silent_corner hf hstatus hrows hcolumns] at hbold
      have hsame : Modifiers.none = .justBold := congrArg Cell.modifiers (Option.some.inj hbold)
      exact absurd hsame (by decide)
  · intro hshort
    have hwhole (e : JumpError) (he : v.message = some e) :
        v.ShowsWhole printText e rows columns ∨
          v.draw rows columns = v.silent.draw rows columns := by
      rcases hshort e he with hfit | hroom
      · exact showsWhole_or_bare hf hstatus hrows hcolumns he hfit
      · exact .inr (draw_eq_silent hrows hcolumns he (by rw [hend he]; omega))
    exact ⟨char?_draw_corner hf hstatus hrows hcolumns hwhole, hwhole⟩

end Viewer

end TextPager
