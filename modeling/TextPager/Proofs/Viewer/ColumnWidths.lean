import TextPager.Proofs.Viewer.FrameCells

/-!
# Text of one-column characters

A terminal gives some characters two columns and some none, and the fields on the border are placed
by the number of their characters. The two agree on text whose printed characters take one column
each: there `printOn` is `printText`, whatever columns other characters take. What the viewer puts
on the border is the parts of its frame, the title, what was typed at the prompt, the message, and
words and numbers in ASCII; so the screen is as `draw` has it if the first four are such text.

**Results.**
* `CellWidths.printFrom_eq`: characters of one column are printed as one piece.
* `mem_commands_ascii`, `status_ascii`: labels and page numbers are ASCII.
* `Viewer.OneColumn.drawBy_printOn`: a viewer that is given one-column text is drawn as with
  `printText`.
-/
namespace TextPager

/-! ## ASCII -/

/-- All characters of the text are printable ASCII. -/
def Text.Ascii (t : Text) : Prop := ∀ c ∈ t, 0x20 ≤ c.toNat ∧ c.toNat ≤ 0x7E

namespace Text.Ascii

instance (t : Text) : Decidable t.Ascii :=
  decidable_of_iff (t.all fun c => 0x20 ≤ c.toNat && c.toNat ≤ 0x7E) (by simp [Text.Ascii])

variable {a b t : Text}

theorem append (ha : a.Ascii) (hb : b.Ascii) : Text.Ascii (a ++ b) :=
  List.forall_mem_append.2 ⟨ha, hb⟩

theorem visible (h : t.Ascii) : t.Visible := fun c hc => by
  obtain ⟨hlow, hhigh⟩ := h c hc
  simp only [isControl, Bool.or_eq_false_iff, Bool.and_eq_false_iff, decide_eq_false_iff_not]
  omega

end Text.Ascii

theorem digitChar_ascii : ∀ n < 16, 0x20 ≤ n.digitChar.toNat ∧ n.digitChar.toNat ≤ 0x7E := by
  decide

theorem toDigits_ascii {base : Nat} (hlow : 1 < base) (hhigh : base ≤ 16) (n : Nat) :
    Text.Ascii (Nat.toDigits base n) := by
  have hlast (m : Nat) (hm : m < base) : Text.Ascii [m.digitChar] :=
    List.forall_mem_singleton.2 (digitChar_ascii m (Nat.lt_of_lt_of_le hm hhigh))
  induction n using Nat.strongRecOn with
  | ind n ih =>
    by_cases hn : n < base
    · rw [Nat.toDigits_of_lt_base hn]
      exact hlast n hn
    · rw [Nat.toDigits_of_base_le hlow (Nat.le_of_not_lt hn)]
      exact (ih _ (Nat.div_lt_self (by omega) hlow)).append (hlast _ (Nat.mod_lt n (by omega)))

theorem ofNat_ascii (n : Nat) : (Text.ofNat n).Ascii := toDigits_ascii (by decide) (by decide) n

/-! ## Printing glyph by glyph -/

theorem Row.print_nil (row : Row) (column : Nat) : row.print column [] = row := by
  have hnone (r : Row) : printStart r [] = r := by cases r <;> rfl
  rw [print, hnone, List.take_append_drop]

theorem Row.print_cons (row : Row) (column : Nat) (g : Glyph) (gs : List Glyph) :
    row.print column (g :: gs) = (row.print column [g]).print (column + 1) gs := by
  refine List.ext_getElem? fun i => ?_
  rw [getElem?_print, getElem?_print (row.print column [g]), getElem?_print]
  rcases Nat.lt_trichotomy i column with hbefore | rfl | hafter
  · rw [if_pos hbefore, if_pos (by omega), if_pos hbefore]
  · simp
  · obtain ⟨k, rfl⟩ := Nat.exists_eq_add_of_lt hafter
    have hk : column + k + 1 - column = k + 1 := by omega
    have hk' : column + k + 1 - (column + 1) = k := by omega
    rw [if_neg (by omega), if_neg (by omega), if_neg (by omega), hk, hk', List.getElem?_cons_succ]
    rfl

namespace Screen

theorem print_nil (screen : Screen) (row column : Nat) : screen.print row column [] = screen := by
  have hid : (fun r : Row => r.print column []) = id := funext fun r => Row.print_nil r column
  rw [print, hid, List.modify_id]

theorem print_cons (screen : Screen) (row column : Nat) (g : Glyph) (gs : List Glyph) :
    screen.print row column (g :: gs) =
      (screen.print row column [g]).print row (column + 1) gs := by
  have hcons : (fun r : Row => r.print column (g :: gs)) =
      (fun r => r.print (column + 1) gs) ∘ fun r => r.print column [g] :=
    funext fun r => Row.print_cons r column g gs
  rw [print, hcons, print, print, List.modify_modify_eq]

end Screen

/-! ## Text of one-column characters -/

namespace CellWidths

open Viewer (printFrom printOn printText)

/-- Each character of the text that is printed takes one column. -/
def OneColumn (w : CellWidths) (t : Text) : Prop := ∀ c ∈ t, isControl c = false → w.columns c = 1

instance (w : CellWidths) (t : Text) : Decidable (w.OneColumn t) :=
  decidable_of_iff (t.all fun c => isControl c || w.columns c == 1)
    (by simp [OneColumn, Decidable.or_iff_not_imp_left])

variable {w : CellWidths} {f : Frame} {a b t : Text}

theorem OneColumn.append (ha : w.OneColumn a) (hb : w.OneColumn b) : w.OneColumn (a ++ b) :=
  List.forall_mem_append.2 ⟨ha, hb⟩

theorem OneColumn.singleton (ht : w.OneColumn t) {c : Char} (hc : c ∈ t) : w.OneColumn [c] :=
  List.forall_mem_singleton.2 (ht c hc)

theorem oneColumn_of_ascii (h : t.Ascii) : w.OneColumn t := fun c hc _ =>
  w.columns_ascii c (h c hc).1 (h c hc).2

theorem OneColumn.field (hf : w.OneColumn f.shownParts) (ht : w.OneColumn t) :
    w.OneColumn (f.field t) :=
  ((hf.singleton (by simp [Frame.shownParts])).append ht).append
    (hf.singleton (by simp [Frame.shownParts]))

/-- Characters of one column are printed as one piece. -/
theorem printFrom_eq (h : w.OneColumn t) (row : Nat) (s : Style) (column room : Nat)
    (screen : Screen) :
    printFrom w row s t column room screen =
      (screen.print row column (glyphs t room s), column + (glyphs t room s).length) := by
  induction t generalizing column room screen with
  | nil => simp [printFrom, glyphs, Screen.print_nil]
  | cons c t ih =>
    have ht : w.OneColumn t := fun d hd => h d (List.mem_cons_of_mem c hd)
    by_cases hc : isControl c = true
    · have hskip : glyphs (c :: t) room s = glyphs t room s := by simp [glyphs, hc]
      rw [printFrom, if_pos (.inl hc), ih ht, hskip]
    · have hone : w.columns c = 1 := h c List.mem_cons_self (Bool.eq_false_iff.2 hc)
      rw [printFrom, hone, if_neg (by simp [hc])]
      cases room with
      | zero => simp [glyphs, Screen.print_nil]
      | succ room =>
        have hfirst : glyphs (c :: t) (room + 1) s = (c, s) :: glyphs t room s := by
          simp [glyphs, hc]
        rw [if_neg (by omega), ih ht, hfirst, List.length_cons,
          Screen.print_cons screen row column (c, s) (glyphs t room s)]
        simp only [Nat.sub_self, Screen.erase, Nat.add_sub_cancel, Nat.add_assoc, Nat.add_comm 1]

theorem printOn_eq (h : w.OneColumn t) (columns row column limit : Nat) (s : Style)
    (screen : Screen) :
    printOn w columns row column limit t s screen =
      printText columns row column limit t s screen :=
  printFrom_eq h row s column _ screen

end CellWidths

namespace Viewer

variable {w : CellWidths} {v : Viewer} {rows columns : Nat}

/-! ## Labels and page numbers -/

/-- Labels of commands are ASCII. -/
theorem mem_commands_ascii {c : Command} (hc : c ∈ v.commands) : c.label.Ascii := by
  have hall : ∀ c ∈ flowCommands ++ [.back, .flow, .jump, .next, .exit], c.label.Ascii := by
    decide
  refine hall c ?_
  unfold commands at hc
  split at hc
  · exact List.mem_append_left _ hc
  · refine List.mem_append_right _ ?_
    unfold readingCommands at hc
    grind

theorem status_ascii : v.status.Ascii :=
  ((ofNat_ascii _).append (by decide)).append (ofNat_ascii _)

/-! ## Every part of the screen -/

theorem drawFrame_printOn {f : Frame} (hf : w.OneColumn f.shownParts) (screen : Screen) :
    drawFrame (printOn w) f rows columns screen = drawFrame printText f rows columns screen := by
  have hpart {c : Char} (hc : c ∈ f.shownParts) : w.OneColumn [c] := hf.singleton hc
  have hedge {left middle right : Char} (hl : left ∈ f.shownParts) (hm : middle ∈ f.shownParts)
      (hr : right ∈ f.shownParts) (row : Nat) (s : Screen) :
      printEdge (printOn w) columns row left middle right s =
        printEdge printText columns row left middle right s := by
    have hmiddle : w.OneColumn (List.replicate (columns - 2) middle) := fun c hc =>
      List.eq_of_mem_replicate hc ▸ hf middle hm
    have hone : w.OneColumn (edgeText columns left middle right) :=
      ((hpart hl).append hmiddle).append (hpart hr)
    rw [printEdge, CellWidths.printOn_eq hone]
    rfl
  have hside : printSides (printOn w) f columns = printSides printText f columns := by
    funext s row
    have hone : w.OneColumn [f.side] := hpart (by simp [Frame.shownParts])
    simp only [printSides, printSide, CellWidths.printOn_eq hone]
  rw [drawFrame_eq, drawFrame_eq, hside, hedge, hedge]
  all_goals simp [Frame.shownParts]

theorem drawCommands_printOn {f : Frame} (hf : w.OneColumn f.shownParts) (row : Nat)
    {cs : List Command} (hcs : ∀ c ∈ cs, c.label.Ascii) (screen : Screen) (column : Nat) :
    drawCommands (printOn w) f row columns cs screen column =
      drawCommands printText f row columns cs screen column := by
  induction cs generalizing screen column with
  | nil => rfl
  | cons c cs ih =>
    have hlabel : w.OneColumn (f.field c.label) :=
      hf.field (CellWidths.oneColumn_of_ascii (hcs c List.mem_cons_self))
    rw [drawCommands, drawCommands, CellWidths.printOn_eq hlabel]
    exact ih (fun d hd => hcs d (List.mem_cons_of_mem c hd)) _ _

theorem drawPrompt_printOn {f : Frame} (hf : w.OneColumn f.shownParts) (row : Nat) {input : Text}
    (hinput : w.OneColumn input) (screen : Screen) :
    drawPrompt (printOn w) f row columns input screen =
      drawPrompt printText f row columns input screen := by
  have hright : w.OneColumn [f.rightJoin] := hf.singleton (by simp [Frame.shownParts])
  have hleft : w.OneColumn [f.leftJoin] := hf.singleton (by simp [Frame.shownParts])
  have hprompt : w.OneColumn jumpPrompt := CellWidths.oneColumn_of_ascii (by decide)
  have hcursor : w.OneColumn [' '] := CellWidths.oneColumn_of_ascii (by decide)
  simp only [drawPrompt, CellWidths.printOn_eq ((hright.append hprompt).append hinput),
    CellWidths.printOn_eq hcursor, CellWidths.printOn_eq hleft]

/-- What the viewer is given to put on the border takes one column a character. -/
structure OneColumn (v : Viewer) (w : CellWidths) : Prop where
  frame : w.OneColumn v.frame.shownParts
  title : w.OneColumn v.pager.title
  /-- What was typed at the page prompt. -/
  input : ∀ input, v.mode = .jumping input → w.OneColumn input
  message : ∀ e, v.message = some e → w.OneColumn e.message

namespace OneColumn

/-- What is drawn before the message is as with `printText`. -/
theorem framed_printOn (h : v.OneColumn w) :
    v.framed (printOn w) rows columns = v.framed printText rows columns := by
  have hstatus : w.OneColumn (v.frame.field v.status) :=
    h.frame.field (CellWidths.oneColumn_of_ascii status_ascii)
  have htitled : v.titled (printOn w) rows columns = v.titled printText rows columns := by
    simp only [titled, drawStatus, drawTitle, drawFrame_printOn h.frame,
      CellWidths.printOn_eq hstatus, CellWidths.printOn_eq (h.frame.field h.title)]
  rw [framed, framed, htitled, drawFooter, drawFooter]
  split
  · rename_i input hmode
    exact drawPrompt_printOn h.frame _ (h.input input hmode) _
  · exact drawCommands_printOn h.frame _ (fun c hc => mem_commands_ascii hc) _ _

/-- The whole screen is as `draw` has it. -/
theorem drawBy_printOn (h : v.OneColumn w) (hrows : 2 ≤ rows) (hcolumns : 2 ≤ columns) :
    v.drawBy (printOn w) rows columns = v.draw rows columns := by
  have hsaid (column : Nat) (screen : Screen) :
      v.drawMessage (printOn w) (rows - 1) columns column screen =
        v.drawMessage printText (rows - 1) columns column screen := by
    unfold drawMessage
    split
    · rfl
    · rename_i e he
      simp only [CellWidths.printOn_eq (h.frame.field (h.message e he))]
  simp only [draw, drawBy, v.drawChrome_eq _ hrows hcolumns, h.framed_printOn, hsaid]

end OneColumn

end Viewer

end TextPager
