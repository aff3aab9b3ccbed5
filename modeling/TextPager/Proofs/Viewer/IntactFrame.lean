import TextPager.Proofs.Viewer.BottomLine
import TextPager.Proofs.Viewer.Feedback
import TextPager.Proofs.Viewer.TypedJumps

/-!
# Nothing breaks the frame

On a terminal where the parts of the frame, the title, the text at the prompt and the message take
one column a character, the corners and sides of the frame are still there after everything is
drawn, and a message is whole or not there, whatever was typed and however the screen was resized.
One message is excepted: its width is cut to 16 bits, so one of 65536 columns and more is taken for
a short one. Typing is not limited, so there are such messages.

**Results.**
* `run_frame_title`: no event changes the frame or the title.
* `run_draw_intact_iff`: in every state of a viewer and on every screen, the frame is intact exactly
  if the message is short enough or not drawn.
* `run_draw_wrapped_message`: what a message as long as the limit does to the last corner.
-/
namespace TextPager

namespace Viewer

variable {v : Viewer} {rows columns : Nat}

/-! ## The frame of a viewer -/

theorem act_frame_title (v : Viewer) (a : Action) :
    (v.act a).frame = v.frame ∧ (v.act a).pager.title = v.pager.title := by
  cases a with
  | input _ | erase =>
    simp only [act, pushInput, popInput, editInput]
    split <;> exact ⟨rfl, rfl⟩
  | submit =>
    simp only [act, submit]
    split
    · split <;> exact ⟨rfl, rfl⟩
    · exact ⟨rfl, rfl⟩
  | _ => exact ⟨rfl, rfl⟩

theorem title_setGeometry (p : Pager) (height width : Nat) :
    (p.setGeometry height width).title = p.title := by
  unfold Pager.setGeometry
  split <;> rfl

/-- No event changes the frame or the title. -/
theorem run_frame_title (v : Viewer) (es : List Event) :
    (v.run es).frame = v.frame ∧ (v.run es).pager.title = v.pager.title := by
  induction es generalizing v with
  | nil => exact ⟨rfl, rfl⟩
  | cons e es ih =>
    have hstep : (v.handle e).frame = v.frame ∧ (v.handle e).pager.title = v.pager.title := by
      cases e with
      | resize rows columns => exact ⟨rfl, title_setGeometry _ _ _⟩
      | key press =>
        rcases v.handle_key press with ⟨-, hsame⟩ | ⟨a, -, hact⟩
        · rw [hsame]
          exact ⟨rfl, rfl⟩
        · rw [hact]
          exact v.act_frame_title a
    rw [run_cons, (ih _).1, (ih _).2]
    exact hstep

/-- **Nothing breaks the frame but a message too long to be measured.** Let the parts of the frame
be visible, and let them, the title, what is typed at the prompt and the message be text of
one-column characters. Whatever keys were pressed and however the screen was resized, with a page
count below `wordLimit`, the screen drawn with at least two rows and columns shows the corners and
the sides of the frame, but for the last corner. That corner is the frame's, and the message stands
whole between the commands and it or is not drawn at all, exactly if the field of the message is
shorter than `fieldLimit`, or its length modulo `fieldLimit` has no room right of the commands. -/
theorem run_draw_intact_iff (w : CellWidths) (text title : Text) (height width : Nat)
    (mode : WrapMode) (frame : Frame) (es : List Event) (rows columns : Nat)
    (hvisible : frame.shownParts.Visible) (hframe : w.OneColumn frame.shownParts)
    (htitle : w.OneColumn title) (hrows : 2 ≤ rows) (hcolumns : 2 ≤ columns)
    (hlimit : columns < fieldLimit) :
    let v := (ofPager (.ofText text title height width mode) frame).run es
    let screen := v.drawBy (printOn w) rows columns
    v.pager.pageCount < wordLimit →
    (∀ input, v.mode = .jumping input → w.OneColumn input) →
    (∀ e, v.message = some e → w.OneColumn e.message) →
      screen.char? 0 0 = some frame.topLeft ∧ screen.char? 0 (columns - 1) = some frame.topRight ∧
        screen.char? (rows - 1) 0 = some frame.bottomLeft ∧
        (∀ y, 0 < y → y + 1 < rows →
          screen.char? y 0 = some frame.side ∧ screen.char? y (columns - 1) = some frame.side) ∧
        ((screen.char? (rows - 1) (columns - 1) = some frame.bottomRight ∧
            ∀ e, v.message = some e → v.ShowsWhole (printOn w) e rows columns ∨
              screen = v.silent.drawBy (printOn w) rows columns) ↔
          ∀ e, v.message = some e → (frame.field e.message).length < fieldLimit ∨
            columns ≤ 2 + v.hintColumns + fieldWidth (frame.field e.message)) := by
  intro v screen hcount hinput hmessage
  obtain ⟨hsame, hsameTitle⟩ : v.frame = frame ∧ v.pager.title = title := run_frame_title _ es
  have hf : v.frame.shownParts.Visible := hsame ▸ hvisible
  have hone : v.OneColumn w := ⟨hsame ▸ hframe, hsameTitle ▸ htitle, hinput, hmessage⟩
  have hin : v.InDocument :=
    (InDocument.ofPager (.ofText text title height width mode) frame).run es
  have hstatus := v.length_field_status hin hcount
  have hreading : v.message ≠ none → v.mode = .reading := run_reading (absurd rfl) es
  have hdraw : screen = v.draw rows columns := hone.drawBy_printOn hrows hcolumns
  have hcell {y x : Nat} (hy : y < rows) (hx : x = 0 ∨ x + 1 = columns)
      (hcorner : x = 0 ∨ y + 1 ≠ rows) :
      screen.char? y x = some (frame.charAt rows columns y x) :=
    hsame ▸ hdraw ▸ char?_draw_border hf hstatus hrows hcolumns hy hx hcorner
  refine ⟨hcell (by omega) (.inl rfl) (.inl rfl), ?_, ?_, fun y hy hlast => ⟨?_, ?_⟩, ?_⟩
  · rw [hcell (by omega) (.inr (by omega)) (.inr (by omega)), Frame.charAt, if_pos rfl,
      if_neg (by omega), if_pos (by omega)]
  · rw [hcell (by omega) (.inl rfl) (.inl rfl), Frame.charAt, if_neg (by omega), if_pos (by omega),
      if_pos rfl]
  · rw [hcell (by omega) (.inl rfl) (.inl rfl), Frame.charAt, if_neg (by omega), if_neg (by omega)]
  · rw [hcell (by omega) (.inr (by omega)) (.inr (by omega)), Frame.charAt, if_neg (by omega),
      if_neg (by omega)]
  · simp only [hdraw, hone.silent.drawBy_printOn hrows hcolumns,
      hone.showsWhole_iff hrows hcolumns, ← hsame]
    exact draw_message_intact_iff hf hstatus hrows hcolumns hlimit hreading

/-- Columns of a terminal for which combining marks take none, ideographs two and all other
characters one. -/
def ideographWidths : CellWidths where
  columns c :=
    if 0x300 ≤ c.toNat ∧ c.toNat ≤ 0x36F then 0
    else if 0x4E00 ≤ c.toNat ∧ c.toNat ≤ 0x9FFF then 2
    else 1
  columns_ascii c _ hc := by rw [if_neg (by omega), if_neg (by omega)]

/-- A jump to a page that does not exist. -/
def toPageNine : List Event :=
  [.resize 24 80, .key ⟨.char 'J', false⟩, .key ⟨.char '9', false⟩, .key ⟨.enter, false⟩]

/-- On a screen of two rows a rejected jump is reported just left of the last corner. -/
theorem run_draw_intact_iff_two_rows :
    let v := (ofPager (.ofText "a\nb".toList "menu".toList 1 9 .noWrap)
      FrameKind.heavy.frame).run toPageNine
    let screen := v.drawBy (printOn ideographWidths) 2 60
    (∀ e, v.message = some e → ideographWidths.OneColumn e.message) ∧
      screen.char? 0 0 = some '┏' ∧ screen.char? 1 59 = some '┛' ∧
      v.ShowsWhole (printOn ideographWidths) (.outOfRange 9 1) 2 60 := by
  intro v screen
  have hmessage : v.message = some (.outOfRange 9 1) := by decide +kernel
  have honly {P : JumpError → Prop} (h : P (.outOfRange 9 1)) (e : JumpError)
      (he : v.message = some e) : P e :=
    Option.some.inj (hmessage.symm.trans he) ▸ h
  have hone : ∀ e, v.message = some e → ideographWidths.OneColumn e.message :=
    honly (CellWidths.oneColumn_of_ascii (by decide +kernel))
  have hmode : v.mode = .reading := by decide +kernel
  have hframe : ideographWidths.OneColumn FrameKind.heavy.frame.shownParts := by decide
  obtain ⟨htop, -, -, -, hmeets⟩ := run_draw_intact_iff ideographWidths "a\nb".toList
    "menu".toList 1 9 .noWrap FrameKind.heavy.frame toPageNine 2 60
    (FrameKind.shownParts_visible .heavy) hframe (CellWidths.oneColumn_of_ascii (by decide))
    (by decide) (by decide) (by decide) (by decide +kernel)
    (fun input hinput => by rw [hmode] at hinput; cases hinput) hone
  obtain ⟨hcorner, hshows⟩ := hmeets.2 (honly (.inl (by decide +kernel)))
  have hdrawn : screen ≠ v.silent.drawBy (printOn ideographWidths) 2 60 := by decide +kernel
  exact ⟨hone, htop, hcorner, (hshows _ hmessage).resolve_right hdrawn⟩

-- The parts of the frame have to be visible: a corner that is a control character is left out when
-- the edge is printed, which then ends a column early.
example :
    let frame : Frame := { FrameKind.light.frame with topLeft := bell }
    let v := (ofPager (.ofText "a".toList [] 1 1 .noWrap) frame).run [.resize 3 8]
    (v.draw 3 8).text 0 0 8 = "──┤1/1├ ".toList := by decide +kernel

/-! ## A message as long as the limit -/

/-- What is typed by a key held down. -/
def heldKey (n : Nat) : Text := List.replicate n 'x'

theorem quoted_heldKey (n : Nat) : (heldKey n).quoted = ['"'] ++ heldKey n ++ ['"'] := by
  have hletter : quoteChar 'x' = ['x'] := by decide
  rw [Text.quoted, heldKey, List.flatMap_replicate, hletter, List.flatten_replicate_singleton]

theorem jumpTo_heldKey {n : Nat} (hn : 0 < n) (count : Nat) :
    Bookmark.jumpTo (heldKey n) count = .error (.notANumber (heldKey n)) := by
  have hmem : 'x' ∈ heldKey n := List.mem_replicate.2 ⟨by omega, rfl⟩
  have hspace : ∀ c ∈ heldKey n, isSpace c = false := fun c hc => by
    rw [List.eq_of_mem_replicate hc]
    decide
  have htrim : Text.trim ([] ++ heldKey n ++ []) = heldKey n :=
    Text.trim_append rfl rfl (List.ne_nil_of_mem hmem) hspace
  rw [List.nil_append, List.append_nil] at htrim
  rw [Bookmark.jumpTo, htrim, Text.number?_eq_none_of_not_digit hmem (by decide) (by decide)]

theorem run_heldKey {v : Viewer} (hm : v.mode = .reading) {n : Nat} (hn : 0 < n) :
    v.run (pageRequest (heldKey n) false false) =
      { v with mode := .reading, message := some (.notANumber (heldKey n)) } := by
  rw [run_pageRequest hm, submit_of_error rfl (jumpTo_heldKey hn _)]
  rfl

theorem message_heldKey_ascii (n : Nat) : (JumpError.notANumber (heldKey n)).message.Ascii := by
  have hkey : (heldKey n).Ascii := fun c hc => by
    rw [List.eq_of_mem_replicate hc]
    decide
  have hquoted : (heldKey n).quoted.Ascii := by
    rw [quoted_heldKey]
    exact (Text.Ascii.append (by decide) hkey).append (by decide)
  exact hquoted.append (by decide)

theorem length_field_heldKey (f : Frame) (n : Nat) :
    (f.field (JumpError.notANumber (heldKey n)).message).length = n + 25 := by
  have hkey : (heldKey n).length = n := List.length_replicate
  have hquoted : (heldKey n).quoted.length = n + 2 := by
    rw [quoted_heldKey, List.length_append, List.length_append, hkey, List.length_singleton]
    omega
  have hmessage : (JumpError.notANumber (heldKey n)).message.length = n + 23 :=
    List.length_append.trans (by rw [hquoted]; rfl)
  simp only [Frame.field, List.length_append, List.length_singleton, hmessage]
  omega

/-- Held down for 65511 characters it makes a message that begins in the last corner of a screen of
24 rows and 80 columns, where a join of the frame is shown instead; so the message is neither whole
nor left out. -/
theorem run_draw_wrapped_message :
    let start := ofPager (.ofText "a".toList [] 1 1 .noWrap) FrameKind.light.frame
    let v := start.run (.resize 24 80 :: pageRequest (heldKey 65511) false false)
    let screen := v.drawBy (printOn ideographWidths) 24 80
    v.message = some (.notANumber (heldKey 65511)) ∧
      ideographWidths.OneColumn (JumpError.notANumber (heldKey 65511)).message ∧
      screen.char? 23 79 = some '┤' ∧ FrameKind.light.frame.bottomRight = '┘' ∧
      ¬v.ShowsWhole (printOn ideographWidths) (.notANumber (heldKey 65511)) 24 80 ∧
      screen ≠ v.silent.drawBy (printOn ideographWidths) 24 80 := by
  intro start v screen
  have hin : v.InDocument := (InDocument.ofPager (.ofText "a".toList [] 1 1 .noWrap) _).run _
  have hv : v = { start.resize 24 80 with
      mode := .reading, message := some (.notANumber (heldKey 65511)) } :=
    (run_cons start _ _).trans (run_heldKey rfl (by decide))
  clear_value v
  have hmode : v.mode = .reading := by rw [hv]
  have hmessage : v.message = some (.notANumber (heldKey 65511)) := by rw [hv]
  have hframe : v.frame = FrameKind.light.frame := by rw [hv]; rfl
  have htitle : v.pager.title = [] := by rw [hv]; rfl
  have hcount : v.pager.pageCount = 1 := by rw [hv]; decide +kernel
  have hhints : v.hintColumns = 18 := by rw [hv]; decide +kernel
  have hsaid : ideographWidths.OneColumn (JumpError.notANumber (heldKey 65511)).message :=
    CellWidths.oneColumn_of_ascii (message_heldKey_ascii _)
  have hone : v.OneColumn ideographWidths := by
    refine ⟨by rw [hframe]; decide, by rw [htitle]; decide, fun input hinput => ?_, fun e he => ?_⟩
    · rw [hmode] at hinput
      cases hinput
    · rw [hmessage] at he
      cases he
      exact hsaid
  have hdraw : screen = v.draw 24 80 := hone.drawBy_printOn (by decide) (by decide)
  -- its width is counted as 0, which has room right of the commands
  have hf : v.frame.shownParts.Visible := hframe ▸ FrameKind.shownParts_visible .light
  have hstatus := v.length_field_status hin (by rw [hcount]; decide)
  have hend : (v.framed printText 24 80).2 = 19 := by
    rw [framed_end hf hmode (by decide), hhints]
    rfl
  have hwrap : (v.frame.field (JumpError.notANumber (heldKey 65511)).message).length %
      fieldLimit = 0 := by rw [length_field_heldKey]; rfl
  have hcorner : (v.draw 24 80).char? 23 79 = some v.frame.rightJoin :=
    char?_draw_corner_of_wrapped hf hstatus (by decide) hmessage hwrap (by rw [hend]; decide)
  have hnot : ¬(v.ShowsWhole printText (.notANumber (heldKey 65511)) 24 80 ∨
      v.draw 24 80 = v.silent.draw 24 80) := fun hwhole => by
    have hintact : (v.draw 24 80).char? 23 79 = some v.frame.bottomRight :=
      char?_draw_corner hf hstatus (by decide) (by decide) fun e he =>
        Option.some.inj (hmessage.symm.trans he) ▸ hwhole
    rw [hcorner, hframe] at hintact
    exact absurd hintact (by decide)
  rw [not_or, ← hone.showsWhole_iff (by decide) (by decide), ← hdraw,
    ← hone.silent.drawBy_printOn (by decide) (by decide)] at hnot
  exact ⟨hmessage, hsaid, by rw [hdraw, hcorner, hframe]; rfl, rfl, hnot⟩

end Viewer

end TextPager
