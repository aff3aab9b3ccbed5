import TextPager.Program
import TextPager.Proofs.Man.Characters
import TextPager.Proofs.Page.Partition
import TextPager.Proofs.Text.Paragraphs

/-!
# Printed pages are read back

A document is printed page by page, each line ended by a newline, with a line of one form feed
between two pages. That is read back if no line of a page holds a newline, and none is the line
between two pages. Both hold of what every wrap mode makes of a document without a form feed: a
line is cut out at newlines, or it is filled with words, which hold no white space, and its other
characters are those of the document or those that laying out a manual page adds.

**Results.**
* `madeOf_of_mem_reflow`: the characters of the display lines, in every mode.
* `printed_eq`: printed pages are lines, each ended.
* `readPages_printed`: printed pages are read back.
-/
namespace TextPager

open Man (madeOf madeOf_nil AdmitsPages)

/-! ## Display lines -/

section Lines

variable {P : Char → Prop} {t : Text} {width : Nat} {l : Text}

theorem madeOf_of_mem_reflowDetect (hs : P ' ') (h : ∀ line ∈ t.piecesAt '\n', madeOf P line)
    (hl : l ∈ reflowDetect t width) : madeOf P l := by
  obtain ⟨st, hst, hl⟩ := List.mem_flatMap.1 hl
  have hlines : ∀ line ∈ st.lines, madeOf P line := fun line hline =>
    h line (mem_of_mem_stretches hst hline)
  cases st with
  | prose ls =>
    rcases List.mem_append.1 hl with hl | hl
    · exact Text.mem_of_mem_wrapWith hs (Man.madeOf_joinWords hs hlines) hl
    · exact List.mem_singleton.1 hl ▸ madeOf_nil
  | bullet line =>
    have hline : madeOf P line := hlines line List.mem_cons_self
    exact List.forall_mem_cons.2 ⟨hline, List.forall_mem_singleton.2 madeOf_nil⟩ l hl

theorem madeOf_of_mem_reflowLong (hs : P ' ') (h : ∀ line ∈ t.piecesAt '\n', madeOf P line)
    (hl : l ∈ reflowLong t width) : madeOf P l := by
  obtain ⟨line, hline, hl⟩ := List.mem_flatMap.1 hl
  unfold wrapLong at hl
  split at hl
  · rw [List.mem_singleton.1 hl]
    exact h line hline
  · exact Text.mem_of_mem_wrapWith hs (h line hline) hl

theorem madeOf_of_mem_reflowNoWrap (h : ∀ line ∈ t.piecesAt '\n', madeOf P line)
    (hl : l ∈ reflowNoWrap t width) : madeOf P l := by
  obtain ⟨line, hline, rfl⟩ := List.mem_map.1 hl
  exact fun c hc => h line hline c (Text.mem_truncate (Text.mem_of_mem_dropEndWhile hc))

/-- No display line holds a newline, and its characters are of every class that holds those of the
document and those that a manual page is laid out with. -/
theorem madeOf_of_mem_reflow {s : Man.Styles} (h : AdmitsPages P s) (ht : madeOf P t)
    {mode : WrapMode} (hl : l ∈ reflow s mode width t) : '\n' ∉ l ∧ madeOf P l := by
  have hline : ∀ {u : Text}, madeOf P u → ∀ line ∈ u.piecesAt '\n',
      madeOf (fun c => c ≠ '\n' ∧ P c) line := by
    intro u hu line hmem c hc
    have hnewline := Text.not_mem_of_mem_pieces hmem hc
    exact ⟨by simpa using hnewline, hu c (Text.mem_of_mem_pieces hmem hc)⟩
  have hspace : ' ' ≠ '\n' ∧ P ' ' := ⟨by decide, h.space⟩
  have hboth : madeOf (fun c => c ≠ '\n' ∧ P c) l := by
    cases mode with
    | detect => exact madeOf_of_mem_reflowDetect hspace (hline ht) hl
    | long => exact madeOf_of_mem_reflowLong hspace (hline ht) hl
    | man => exact hline (Man.madeOf_renderPage h ht _) l hl
    | noWrap => exact madeOf_of_mem_reflowNoWrap (hline ht) hl
  exact ⟨fun hn => (hboth '\n' hn).1 rfl, fun c hc => (hboth c hc).2⟩

end Lines

/-! ## Pages -/

/-- Pages read from what was printed: its lines, cut at those that are a form feed. -/
def readPages (out : Text) : List Page := (out.piecesAt '\n').dropLast.splitOn ['\x0c']

/-- Printed pages are lines, each ended: those of the pages, and one between two pages. -/
theorem printed_eq (pages : List Page) :
    printed pages = Text.ended (List.intercalate [['\x0c']] pages) := by
  induction pages with
  | nil => rfl
  | cons p ps ih =>
    cases ps with
    | nil => rw [printed_singleton, List.intercalate_singleton]
    | cons q ps =>
      have hcons : printed (p :: q :: ps) = Text.ended p ++ pageBreak ++ printed (q :: ps) :=
        List.intercalate_cons_cons
      rw [hcons, ih, List.intercalate_cons_cons, Man.ended_append, Man.ended_append]
      rfl

/-- Pages of lines without newlines and form feeds are read back. -/
theorem readPages_of_lines {pages : List Page} (hne : pages ≠ [])
    (h : ∀ p ∈ pages, ∀ l ∈ p, '\n' ∉ l ∧ '\x0c' ∉ l) : readPages (printed pages) = pages := by
  have hlines : ∀ l ∈ List.intercalate [['\x0c']] pages, '\n' ∉ l :=
    Text.forall_mem_intercalate (List.forall_mem_singleton.2 (by decide))
      fun p hp l hl => (h p hp l hl).1
  rw [readPages, printed_eq, Man.piecesAt_ended, Man.flatMap_piecesAt hlines, List.dropLast_concat]
  refine List.splitOn_intercalate _ (fun p hp hbreak => ?_) hne
  exact (h p hp _ hbreak).2 List.mem_cons_self

namespace Pager

/-- The lines of a page are display lines of the document. -/
theorem mem_reflow_of_mem_makePages {p : Pager} {page : Page} (hp : page ∈ p.makePages) {l : Text}
    (hl : l ∈ page) : l ∈ reflow p.styles p.mode p.width p.text := by
  simp only [makePages] at hp
  split at hp
  · rw [List.mem_singleton.1 hp] at hl
    cases hl
  · exact (paginate_cutInto _ _).mem_of_mem hp hl

end Pager

/-- Neither table of styles adds a form feed. -/
theorem admitsPages_formFeed {s : Man.Styles} (h : s = .plain ∨ s = .ansi) :
    AdmitsPages (· ≠ '\x0c') s := by
  have hadmits : Man.Admits (· ≠ '\x0c') := Man.admits_ne (by decide)
  rcases h with rfl | rfl
  · exact ⟨hadmits, by decide, madeOf_nil, madeOf_nil, madeOf_nil, by decide⟩
  · exact ⟨hadmits, by decide, Text.forall_mem_of_all (by decide), Text.forall_mem_of_all (by decide),
      Text.forall_mem_of_all (by decide), fun _ => Text.forall_mem_of_all (by decide)⟩

/-- **Printed pages are read back.** Let a document hold no form feed. At every height and width, in
every wrap mode, with styles or without, its pages hold no newline and are read back from what is
printed. `Config.printer` is such a pager. -/
theorem readPages_printed {text : Text} (h : '\x0c' ∉ text) (title : Text) (height width : Nat)
    (mode : WrapMode) {s : Man.Styles} (hs : s = .plain ∨ s = .ansi) :
    let pages := ((Pager.ofText text title height width mode).setStyles s).pages
    (∀ page ∈ pages, ∀ l ∈ page, '\n' ∉ l) ∧ readPages (printed pages) = pages := by
  intro pages
  have hmade : pages = ((Pager.ofText text title height width mode).setStyles s).makePages :=
    (Pager.fresh_setStyles _ s).pages_eq
  have htext : madeOf (· ≠ '\x0c') text := fun c hc he => h (he ▸ hc)
  have hlines : ∀ page ∈ pages, ∀ l ∈ page, '\n' ∉ l ∧ '\x0c' ∉ l := by
    intro page hpage l hl
    obtain ⟨hnewline, hother⟩ := madeOf_of_mem_reflow (admitsPages_formFeed hs) htext
      (Pager.mem_reflow_of_mem_makePages (hmade ▸ hpage) hl)
    exact ⟨hnewline, fun hfeed => hother _ hfeed rfl⟩
  have hne : pages ≠ [] := hmade ▸ Pager.makePages_ne_nil _
  exact ⟨fun page hpage l hl => (hlines page hpage l hl).1, readPages_of_lines hne hlines⟩

/-- A section and a paragraph. -/
def twoBlocks : Text := ".SH NAME\nspam and eggs\n.P\nham\n".toList

/-- Pages of two lines and twelve columns, two of which close with a blank line. -/
theorem readPages_printed_twoBlocks :
    '\x0c' ∉ twoBlocks ∧
      readPages (printed ((Pager.ofText twoBlocks [] 2 12 .man).setStyles .plain).pages) =
        [["NAME", "    spam and"], ["    eggs", ""], ["    ham", ""]].map (·.map String.toList) := by
  have h : '\x0c' ∉ twoBlocks := by decide
  have hpages : ((Pager.ofText twoBlocks [] 2 12 .man).setStyles .plain).pages =
      [["NAME", "    spam and"], ["    eggs", ""], ["    ham", ""]].map (·.map String.toList) := by
    decide +kernel
  exact ⟨h, (readPages_printed h [] 2 12 .man (.inl rfl)).2.trans hpages⟩

end TextPager
