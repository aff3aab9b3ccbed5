import Mathlib.Algebra.GroupWithZero.Nat
import Mathlib.Algebra.Order.BigOperators.Group.List
import Mathlib.Algebra.Order.Group.Nat
import TextPager.Proofs.Text.FilledLines
import TextPager.Text.Number

/-!
# Filling lines with machine words

Columns and counts of words are kept in machine words, which end at `wordLimit`: a sum that reaches
the limit overflows, a difference below zero underflows. Here lines are filled once more, every sum
and every difference checked, and the outcome is nothing if one of them fails. None does. The
columns of a line in progress never exceed the lead and the characters of the text together, and a
text and a lead are strings, which hold less than half as many characters as a word can count.

**Results.**
* `leadColumns?_eq`: the columns of leading white space are counted without a failure.
* `Filler.push?_eq`: so a word is set, if the columns on the line and those of the word leave room.
* `wrap?_eq`: a text that is a string is wrapped without a failure.
-/
namespace TextPager

/-- No string holds as many characters. -/
def stringLimit : Nat := Nat.pow 2 63

theorem stringLimit_add_self : stringLimit + stringLimit = wordLimit := rfl

/-- The sum of two machine words, if it is one. -/
def checkedAdd (a b : Nat) : Option Nat := if a + b < wordLimit then some (a + b) else none

/-- The difference of two machine words, if it is one. -/
def checkedSub (a b : Nat) : Option Nat := if b ≤ a then some (a - b) else none

theorem checkedAdd_eq {a b : Nat} (h : a + b < wordLimit) : checkedAdd a b = some (a + b) :=
  if_pos h

theorem checkedSub_eq {a b : Nat} (h : b ≤ a) : checkedSub a b = some (a - b) := if_pos h

/-! ## The lead -/

/-- The column after a character of leading white space. -/
def columnAfter? (column : Nat) (c : Char) : Option Nat :=
  if c = '\t' then do
    let fill ← checkedSub tabStop (column % tabStop)
    checkedAdd column fill
  else checkedAdd column 1

theorem columnAfter?_eq {column : Nat} {c : Char} (h : columnAfter column c < wordLimit) :
    columnAfter? column c = some (columnAfter column c) := by
  unfold columnAfter at h ⊢
  unfold columnAfter?
  split
  · rename_i htab
    rw [if_pos htab] at h
    rw [checkedSub_eq (Nat.le_of_lt (Nat.mod_lt column (by decide)))]
    exact checkedAdd_eq h
  · rename_i htab
    rw [if_neg htab] at h
    exact checkedAdd_eq h

theorem le_columnAfter (column : Nat) (c : Char) : column ≤ columnAfter column c := by
  unfold columnAfter
  split <;> omega

theorem le_foldl_columnAfter (cs : List Char) (column : Nat) :
    column ≤ cs.foldl columnAfter column := by
  induction cs generalizing column with
  | nil => exact Nat.le_refl column
  | cons c cs ih => exact Nat.le_trans (le_columnAfter column c) (ih _)

theorem foldlM_columnAfter? {cs : List Char} {column : Nat}
    (h : cs.foldl columnAfter column < wordLimit) :
    cs.foldlM columnAfter? column = some (cs.foldl columnAfter column) := by
  induction cs generalizing column with
  | nil => rfl
  | cons c cs ih =>
    have hc : columnAfter column c < wordLimit :=
      Nat.lt_of_le_of_lt (le_foldl_columnAfter cs _) h
    rw [List.foldlM_cons, columnAfter?_eq hc]
    exact ih h

namespace Text

/-- Columns of a text's leading white space, which ends where the text without it begins. -/
def leadColumns? (t : Text) : Option Nat := do
  let lead ← checkedSub t.length t.trimStart.length
  (t.take lead).foldlM columnAfter? 0

theorem leadColumns?_eq {t : Text} (h : t.leadColumns < wordLimit) :
    t.leadColumns? = some t.leadColumns := by
  have hsplit : t.takeWhile isSpace ++ t.trimStart = t := List.takeWhile_append_dropWhile
  have hlength := congrArg List.length hsplit
  rw [List.length_append] at hlength
  have hlead : t.length - t.trimStart.length = (t.takeWhile isSpace).length := by omega
  have htake : t.take (t.takeWhile isSpace).length = t.takeWhile isSpace :=
    (List.prefix_iff_eq_take.1 (List.takeWhile_prefix isSpace)).symm
  rw [leadColumns?, checkedSub_eq (by omega), hlead, Option.bind_eq_bind, Option.bind_some, htake]
  exact foldlM_columnAfter? h

end Text

/-! ## Lines -/

namespace Filler

/-- Ends the current line if the next word does not fit beside those on it. -/
def endFull? (f : Filler) (columns : Nat) : Option Filler :=
  if f.words = 0 then some f
  else do
    let gap ← checkedAdd f.used 1
    let next ← checkedAdd gap columns
    some (if f.width < next then f.flush else f)

/-- Drops a lead the next word does not fit beside. -/
def dropLead? (f : Filler) (columns : Nat) : Option Filler :=
  if f.words = 0 then do
    let next ← checkedAdd f.used columns
    some (if f.width < next then { f with current := [], used := 0 } else f)
  else some f

/-- Sets a word on the current line. -/
def append? (f : Filler) (word : Text) (columns : Nat) : Option Filler := do
  let gap ← checkedAdd f.used f.gap
  let used ← checkedAdd gap columns
  let words ← checkedAdd f.words 1
  some { f with current := f.current ++ Text.spaces f.gap ++ word, used := used, words := words }

/-- Places a word of so many columns. -/
def push? (f : Filler) (word : Text) (columns : Nat) : Option Filler := do
  let f ← f.endFull? columns
  let f ← f.dropLead? columns
  f.append? word columns

variable {f : Filler} {word : Text} {columns : Nat}

/-- The line a word goes to: the current one, or a new one if the word does not fit. -/
theorem endFull?_eq (h : f.used + 1 + columns < wordLimit) :
    f.endFull? columns =
      some (if f.words ≠ 0 ∧ f.width < f.used + 1 + columns then f.flush else f) := by
  unfold endFull?
  by_cases hw : f.words = 0
  · simp [hw]
  · simp [hw, checkedAdd_eq (show f.used + 1 < wordLimit by omega), checkedAdd_eq h]

theorem dropLead?_eq (h : f.used + columns < wordLimit) :
    f.dropLead? columns = some (f.dropLead columns) := by
  unfold dropLead? dropLead
  by_cases hw : f.words = 0
  · simp [hw, checkedAdd_eq h]
  · simp [hw]

theorem append?_eq (h : f.used + f.gap + columns < wordLimit) (hwords : f.words + 1 < wordLimit) :
    f.append? word columns = some (f.append word columns) := by
  have hgap : f.used + f.gap < wordLimit := by omega
  simp [append?, append, checkedAdd_eq hgap, checkedAdd_eq h, checkedAdd_eq hwords]

/-- The current line takes no more columns than another one does, and has no more words. -/
structure AtMost (g f : Filler) : Prop where
  used : g.used ≤ f.used
  words : g.words ≤ f.words

theorem AtMost.refl (f : Filler) : AtMost f f := ⟨Nat.le_refl _, Nat.le_refl _⟩

theorem atMost_flush (f : Filler) : AtMost f.flush f := ⟨Nat.zero_le _, Nat.zero_le _⟩

theorem AtMost.dropLead {g : Filler} (h : AtMost g f) (columns : Nat) :
    AtMost (g.dropLead columns) f := by
  unfold Filler.dropLead
  split
  · exact ⟨Nat.zero_le _, h.words⟩
  · exact h

theorem gap_le_one (f : Filler) : f.gap ≤ 1 := by
  unfold gap
  split <;> omega

/-- A word adds its columns to a line, one for the space before it, and itself. -/
theorem push_atMost (f : Filler) (word : Text) (columns : Nat) :
    (f.push word columns).used ≤ f.used + 1 + columns ∧
      (f.push word columns).words ≤ f.words + 1 := by
  have hset : ∀ {g : Filler}, AtMost g f →
      (g.append word columns).used ≤ f.used + 1 + columns ∧
        (g.append word columns).words ≤ f.words + 1 := by
    intro g hg
    have hgap := g.gap_le_one
    have hused := hg.used
    exact ⟨show g.used + g.gap + columns ≤ _ by omega, Nat.succ_le_succ hg.words⟩
  unfold push
  dsimp only
  split
  · exact hset ((atMost_flush f).dropLead columns)
  · exact hset ((AtMost.refl f).dropLead columns)

/-- A word is set without a failure if the columns on the line leave room for it. -/
theorem push?_eq (h : f.used + 1 + columns < wordLimit) (hwords : f.words + 1 < wordLimit) :
    f.push? word columns = some (f.push word columns) := by
  have hset : ∀ {g : Filler}, AtMost g f →
      (g.dropLead? columns).bind (fun g => g.append? word columns) =
        some ((g.dropLead columns).append word columns) := by
    intro g hg
    have hdrop := hg.dropLead columns
    have hgap := (g.dropLead columns).gap_le_one
    have hused := hdrop.used
    rw [dropLead?_eq (Nat.lt_of_le_of_lt (Nat.add_le_add_right hg.used columns) (by omega)),
      Option.bind_some]
    exact append?_eq (by omega) (Nat.lt_of_le_of_lt (Nat.succ_le_succ hdrop.words) hwords)
  rw [push?, endFull?_eq h, Option.bind_eq_bind, Option.bind_some, push]
  split
  · exact hset (atMost_flush f)
  · exact hset (AtMost.refl f)

/-- Words are set without a failure if the columns on the line leave room for all of them. -/
theorem foldlM_push? {ws : List Text} {f : Filler}
    (hused : f.used + (ws.map fun w => w.width + 1).sum < wordLimit)
    (hwords : f.words + ws.length < wordLimit) :
    ws.foldlM (fun f w => f.push? w w.width) f = some (ws.foldl (place false) f) := by
  induction ws generalizing f with
  | nil => rfl
  | cons w ws ih =>
    rw [List.map_cons, List.sum_cons] at hused
    rw [List.length_cons] at hwords
    obtain ⟨hused', hwords'⟩ := push_atMost f w w.width
    rw [List.foldlM_cons, push?_eq (by omega) (by omega), Option.bind_eq_bind, Option.bind_some,
      ih (by omega) (by omega)]
    rfl

end Filler

/-! ## Wrapped texts -/

namespace Text

/-- A text that is a string, and its lead as well. -/
structure FitsString (t : Text) : Prop where
  length_lt : t.length < stringLimit
  lead_lt : t.leadColumns < stringLimit

instance (t : Text) : Decidable t.FitsString :=
  decidable_of_iff (t.length < stringLimit ∧ t.leadColumns < stringLimit)
    ⟨fun ⟨h1, h2⟩ => ⟨h1, h2⟩, fun h => ⟨h.length_lt, h.lead_lt⟩⟩

/-- The words of a text filled to a width. -/
def wrap? (t : Text) (n : Nat) : Option (List Text) := do
  let lead ← t.leadColumns?
  let f ← t.words.foldlM (fun f w => f.push? w w.width) (Filler.start lead n n)
  some f.lines

theorem countP_isChar_le_length (gs : List Segment) :
    gs.countP Segment.isChar ≤ (ofSegments gs).length := by
  induction gs with
  | nil => exact Nat.le_refl 0
  | cons g gs ih =>
    rw [ofSegments_cons, List.length_append]
    cases g with
    | char c =>
      rw [List.countP_cons_of_pos rfl]
      exact Nat.le_trans (Nat.succ_le_succ ih) (Nat.le_of_eq (Nat.add_comm _ 1))
    | escape e =>
      rw [List.countP_cons_of_neg Bool.false_ne_true]
      exact Nat.le_trans ih (Nat.le_add_left _ _)

/-- A text takes no more columns than it has characters. -/
theorem width_le_length (t : Text) : t.width ≤ t.length := by
  have h := countP_isChar_le_length t.segments
  rwa [ofSegments_segments] at h

/-- Pieces and the characters between them take as many characters as the text. -/
theorem sum_length_pieces (cut : Char → Bool) (t : Text) :
    ((t.pieces cut).map fun p => p.length + 1).sum = t.length + 1 := by
  induction t with
  | nil => rfl
  | cons c t ih =>
    rw [pieces_cons]
    split
    · rw [List.map_cons, List.sum_cons, ih, List.length_nil, List.length_cons]
      omega
    · obtain ⟨p, ps, hp⟩ := List.exists_cons_of_ne_nil (pieces_ne_nil cut t)
      rw [hp, List.map_cons, List.sum_cons] at ih
      rw [hp]
      simp only [List.map_cons, List.sum_cons, List.length_cons]
      omega

/-- The words of a text, with a space each, take no more columns than the text has characters. -/
theorem sum_width_words_le (t : Text) :
    (t.words.map fun w => w.width + 1).sum ≤ t.length + 1 := by
  calc (t.words.map fun w => w.width + 1).sum
      ≤ (t.words.map fun w => w.length + 1).sum :=
        List.sum_le_sum fun w _ => Nat.succ_le_succ w.width_le_length
    _ ≤ ((t.pieces isSpace).map fun p => p.length + 1).sum :=
        (List.filter_sublist.map _).sum_le_sum fun _ _ => Nat.zero_le _
    _ = t.length + 1 := sum_length_pieces isSpace t

/-- A text that is a string is wrapped without a failure. -/
theorem wrap?_eq {t : Text} (h : t.FitsString) (n : Nat) : t.wrap? n = some (t.wrap n) := by
  have hlimit := stringLimit_add_self
  have hlength := h.length_lt
  have hlead := h.lead_lt
  have hsum := t.sum_width_words_le
  have hcount : t.words.length ≤ (t.words.map fun w => w.width + 1).sum := by
    have hone := List.length_le_sum_of_one_le (t.words.map fun w => w.width + 1)
      (List.forall_mem_map.2 fun w _ => Nat.le_add_left 1 w.width)
    rwa [List.length_map] at hone
  have hstart : t.words.foldlM (fun f w => f.push? w w.width) (Filler.start t.leadColumns n n) =
      some (t.words.foldl (Filler.place false) (Filler.start t.leadColumns n n)) :=
    Filler.foldlM_push? (show t.leadColumns + _ < _ by omega) (show 0 + _ < _ by omega)
  rw [wrap?, leadColumns?_eq (by omega), Option.bind_eq_bind, Option.bind_some, hstart]
  rfl

end Text

end TextPager
