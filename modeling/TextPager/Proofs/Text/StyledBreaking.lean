import TextPager.Proofs.Text.Breaking
import TextPager.Proofs.Text.KeptEscapes

/-!
# Breaking styled words

Where a word is broken depends on its visible characters: a piece takes as many as the line has room
for, and the escape sequences up to the next character. So two fillers, one with styled words and one
with their plain forms, break a word in the same places, turn by turn, as long as the word shows a
character. The sequences at its end go with the last one, so that nothing is left when no character is
left, and neither run makes a turn more than the other.

**Results.**
* `splitVisible_filter`: segments split in the same place with and without their sequences.
* `Filler.Breaks.plain`: deleting the sequences commutes with breaking a word.
* `wrapWith_styled`: and with wrapping a text, whether or not words may be broken.
-/
namespace TextPager

namespace Text

/-- Deleting the sequences of a text deletes these segments. -/
theorem segments_plain (t : Text) : t.plain.segments = t.segments.filter Segment.isChar := by
  have hchars : ∀ gs : List Segment,
      (ofSegments (gs.filter Segment.isChar)).map Segment.char = gs.filter Segment.isChar := by
    intro gs
    induction gs with
    | nil => rfl
    | cons g gs ih =>
      cases g with
      | char c => exact congrArg (Segment.char c :: ·) ih
      | escape e => exact ih
  rw [segments_of_not_mem (not_mem_plain t), plain, hchars]

theorem plain_ofSegments {gs : List Segment} (h : ∀ g ∈ gs, g.Whole) :
    (ofSegments gs).plain = ofSegments (gs.filter Segment.isChar) := by
  rw [plain, (segments_ofSegments h).2]

/-- Segments split in the same place with and without their sequences. -/
theorem splitVisible_filter (n : Nat) (gs : List Segment) :
    splitVisible n (gs.filter Segment.isChar) =
      ((splitVisible n gs).1.filter Segment.isChar, (splitVisible n gs).2.filter Segment.isChar) := by
  fun_induction splitVisible n gs with
  | case1 => rfl
  | case2 n e gs head tail hsplit ih => simpa [hsplit, Segment.isChar] using ih
  | case3 c gs => rfl
  | case4 n c gs head tail hsplit ih =>
    rw [hsplit] at ih
    rw [List.filter_cons_of_pos rfl, List.filter_cons_of_pos rfl, splitVisible, ih]

/-- What is left after a split is nothing, or shows a character. -/
theorem splitVisible_snd_shows (n : Nat) (gs : List Segment) :
    (splitVisible n gs).2 = [] ∨ 0 < (splitVisible n gs).2.countP Segment.isChar := by
  fun_induction splitVisible n gs with
  | case1 => exact .inl rfl
  | case2 n e gs head tail hsplit ih => rwa [hsplit] at ih
  | case3 c gs => exact .inr (by simp [Segment.isChar])
  | case4 n c gs head tail hsplit ih => rwa [hsplit] at ih

end Text

namespace Filler

/-- The filler without the escape sequences of what it holds. -/
def plain (f : Filler) : Filler :=
  { f with done := f.done.map Text.plain, current := f.current.plain }

@[simp]
theorem width_plain (f : Filler) : f.plain.width = f.width := by
  simp [width, plain]

@[simp]
theorem room_plain (f : Filler) : f.plain.room = f.room := by
  unfold room
  rw [width_plain]
  rfl

/-! ## One turn -/

theorem plain_flush (f : Filler) : f.flush.plain = f.plain.flush := by
  by_cases hwords : f.words = 0 <;> simp [flush, plain, hwords] <;> rfl

theorem plain_dropLead (f : Filler) (columns : Nat) :
    (f.dropLead columns).plain = f.plain.dropLead columns := by
  by_cases hdrop : f.words = 0 ∧ f.width < f.used + columns
  · have hplain : f.plain.words = 0 ∧ f.plain.width < f.plain.used + columns := by
      rwa [width_plain]
    rw [dropLead, if_pos hdrop, dropLead, if_pos hplain]
    rfl
  · have hplain : ¬(f.plain.words = 0 ∧ f.plain.width < f.plain.used + columns) := by
      rwa [width_plain]
    rw [dropLead, if_neg hdrop, dropLead, if_neg hplain]

theorem plain_append {f : Filler} (hf : f.current.Terminated) (word : Text) (columns : Nat) :
    (f.append word columns).plain = f.plain.append word.plain columns := by
  have hgap : (f.current ++ Text.spaces f.gap).Terminated :=
    hf.append (Text.flat_spaces f.gap).terminated
  have hcurrent : (f.current ++ Text.spaces f.gap ++ word).plain =
      f.current.plain ++ Text.spaces f.gap ++ word.plain := by
    rw [Text.plain_append hgap, Text.plain_append hf, Text.plain_spaces]
  unfold append plain
  rw [hcurrent]
  rfl

theorem plain_push {n : Nat} {f : Filler} (hf : f.Fits n) (word : Text) (columns : Nat) :
    (f.push word columns).plain = f.plain.push word.plain columns := by
  have hset : ∀ {g : Filler}, g.Fits n →
      ((g.dropLead columns).append word columns).plain =
        (g.plain.dropLead columns).append word.plain columns := fun hg => by
    rw [plain_append (hg.dropLead columns).current, plain_dropLead]
  have hpush : (f.push word columns).plain =
      ((if f.words ≠ 0 ∧ f.width < f.used + 1 + columns then f.plain.flush
        else f.plain).dropLead columns).append word.plain columns := by
    unfold push
    split
    · rw [← plain_flush]
      exact hset hf.flush
    · exact hset hf
  rw [hpush, push, width_plain]
  rfl

/-- A turn of breaking splits the plain form in the same place. -/
theorem plain_breakTurn {n : Nat} {f : Filler} (hf : f.Fits n) {left : List Segment}
    (hleft : ∀ s ∈ left, s.Whole) :
    f.plain.breakTurn (left.filter Segment.isChar) =
      ((f.breakTurn left).1.plain, (f.breakTurn left).2.filter Segment.isChar) := by
  unfold breakTurn
  rw [room_plain]
  split
  · rw [plain_flush]
  · have hparts := hleft
    rw [← Text.splitVisible_append f.room left, List.forall_mem_append] at hparts
    rw [Text.splitVisible_filter]
    simp only [plain_push hf, Text.plain_ofSegments hparts.1, List.countP_filter, Bool.and_self]

/-- What a turn leaves of segments that show a character shows one too, if anything is left. -/
theorem breakTurn_snd_shows (f : Filler) {left : List Segment}
    (h : 0 < left.countP Segment.isChar) :
    (f.breakTurn left).2 = [] ∨ 0 < (f.breakTurn left).2.countP Segment.isChar := by
  unfold breakTurn
  split
  · exact .inr h
  · exact Text.splitVisible_snd_shows f.room left

/-! ## Words -/

/-- Deleting the sequences commutes with breaking a word that shows a character. -/
theorem Breaks.plain {n : Nat} {f g : Filler} {left : List Segment} (h : Breaks f left g)
    (hf : f.Fits n) (hleft : ∀ s ∈ left, s.Whole)
    (hshows : left = [] ∨ 0 < left.countP Segment.isChar) :
    Breaks f.plain (left.filter Segment.isChar) g.plain := by
  induction h with
  | done f => exact .done f.plain
  | turn hne _ ih =>
    obtain ⟨hf', hleft'⟩ := (Fits.kept n).breakTurn hf hleft
    have hshow := hshows.resolve_left hne
    have hfilter : _ ≠ [] := List.ne_nil_of_length_pos (List.countP_eq_length_filter ▸ hshow)
    refine .turn hfilter ?_
    rw [plain_breakTurn hf hleft]
    exact ih hf' hleft' (breakTurn_snd_shows _ hshow)

/-- Deleting the sequences commutes with placing a word that shows a character. -/
theorem plain_place {n : Nat} (hn : 0 < n) {f : Filler} (hf : f.Fits n) {w : Text}
    (hw : w.Terminated) (hshow : 0 < w.width) :
    (f.place true w).plain = f.plain.place true w.plain := by
  unfold place
  rw [width_plain, Text.width_plain]
  split
  · have hfirst : 0 < f.first := hf.first ▸ hn
    have hrest : 0 < f.rest := hf.rest ▸ hn
    have hstyled := (breaks_pushBreaking hfirst hrest w).plain hf (Text.segments_whole hw) (.inr hshow)
    have hplain : Breaks f.plain w.plain.segments (f.plain.pushBreaking w.plain) :=
      breaks_pushBreaking (f := f.plain) hfirst hrest w.plain
    rw [Text.segments_plain] at hplain
    exact hstyled.unique hplain
  · exact plain_push hf w w.width

theorem plain_foldl_place {n : Nat} (hn : 0 < n) {ws : List Text}
    (hws : ∀ w ∈ ws, w.Terminated ∧ 0 < w.width) {f : Filler} (hf : f.Fits n) :
    (ws.foldl (place true) f).plain = (ws.map Text.plain).foldl (place true) f.plain := by
  induction ws generalizing f with
  | nil => rfl
  | cons w ws ih =>
    obtain ⟨⟨hw, hshow⟩, hws⟩ := List.forall_mem_cons.1 hws
    rw [List.foldl_cons, ih hws ((Fits.kept n).place hf (Text.segments_whole hw)),
      plain_place hn hf hw hshow, List.map_cons, List.foldl_cons]

end Filler

namespace Text

/-- Deleting the sequences commutes with filling words that show a character and may be broken. -/
theorem fill_breaking_plain {ws : List Text} (hws : ∀ w ∈ ws, w.Terminated ∧ 0 < w.width)
    (lead n : Nat) :
    (fill ws lead n n true).map plain = fill (ws.map plain) lead n n true := by
  have hn : 0 < max n 1 := Nat.lt_of_lt_of_le Nat.one_pos (Nat.le_max_right n 1)
  have hplaced := Filler.plain_foldl_place hn hws (Filler.Fits.start lead n)
  have hstart : (Filler.start lead n n).plain = Filler.start lead n n := by
    simp [Filler.plain, Filler.start, plain_spaces]
  have hlines : ∀ f : Filler, f.lines.map plain = f.plain.lines := fun f => by
    rw [Filler.lines, List.map_reverse, Filler.lines, ← Filler.plain_flush]
    rfl
  rw [fill, hlines, hplaced, hstart, fill]

/-- **Styled text wraps like its plain form.** Let the escape sequences of a text be complete and hold
no white space, and let each of its words show a character. Then the lines it wraps to are, without
their sequences, those its plain form wraps to, at every width, whether or not words may be broken. -/
theorem wrapWith_styled {t : Text} (hend : t.Terminated)
    (hspace : ∀ e ∈ t.escapes, ∀ c ∈ e, isSpace c = false) (hshow : t.WordsShow)
    (breakWords : Bool) (n : Nat) :
    (t.wrapWith breakWords n).map plain = t.plain.wrapWith breakWords n := by
  have hneat : t.Neat := (neat_iff t).2 ⟨hend, hspace⟩
  cases breakWords with
  | false => exact wrap_plain hneat hshow n
  | true =>
    have hwords : ∀ w ∈ t.words, w.Terminated ∧ 0 < w.width := fun w hw =>
      ⟨(mem_words_neat hneat hw).terminated, hshow w hw⟩
    rw [wrapWith, fill_breaking_plain hwords, ← words_plain_of_wordsShow hneat hshow,
      ← leadColumns_plain hneat hshow, wrapWith]

/-- Sequences in, before and after a word, and two of them where it is broken. -/
theorem wrapWith_styled_broken :
    Terminated "  a \x1b[1mbc\x1b[m\x1b(Bdefg\x1b[4mh\x1b[m".toList ∧
      (∀ e ∈ escapes "  a \x1b[1mbc\x1b[m\x1b(Bdefg\x1b[4mh\x1b[m".toList, ∀ c ∈ e,
        isSpace c = false) ∧
      WordsShow "  a \x1b[1mbc\x1b[m\x1b(Bdefg\x1b[4mh\x1b[m".toList ∧
      (wrapWith true "  a \x1b[1mbc\x1b[m\x1b(Bdefg\x1b[4mh\x1b[m".toList 6).map plain =
        ["  a bc".toList, "defgh".toList] := by
  have hneat : Neat "  a \x1b[1mbc\x1b[m\x1b(Bdefg\x1b[4mh\x1b[m".toList := by decide
  obtain ⟨hend, hspace⟩ := (neat_iff _).1 hneat
  have hshow : WordsShow "  a \x1b[1mbc\x1b[m\x1b(Bdefg\x1b[4mh\x1b[m".toList := by decide
  exact ⟨hend, hspace, hshow, wrapWith_styled hend hspace hshow true 6⟩

end Text

end TextPager
