import TextPager.Text.Basic

/-!
# Words

The words of a text are the runs between its white space. Everything about them follows from one
equation, that a white space character separates the words before it from the words after it. So
the words of lines, joined, ended, indented or taken apart again, are the words of the lines one
after the other.

**Results.**
* `pieces_append_cons`: a cut character separates the pieces before it from those after it.
* `pieces_induction`: a text is built from pieces and the characters between them.
* `intercalate_piecesAt`, `piecesAt_intercalate`: pieces joined again are the text, and parts joined are
  read back.
* `words_append_cons`: white space separates words.
* `words_joinWords`, `words_ended`, `flatMap_words_pieces`, `flatMap_words_lines`: setting texts
  side by side or one below the other, and cutting at white space, keeps the words.
* `flatten_words`: words spell the text without its white space.
-/
namespace TextPager.Text

/-! ## Pieces of joined texts -/

theorem pieces_append_cons (cut : Char → Bool) (a b : Text) {c : Char} (hc : cut c = true) :
    pieces cut (a ++ c :: b) = pieces cut a ++ pieces cut b := by
  induction a with
  | nil => simp [pieces_cons, hc]
  | cons d a ih =>
    rw [List.cons_append, pieces_cons, pieces_cons, ih]
    by_cases hd : cut d = true
    · simp [hd]
    · simp only [hd, Bool.false_eq_true, if_false]
      obtain ⟨p, ps, hp⟩ := List.exists_cons_of_ne_nil (pieces_ne_nil cut a)
      simp [hp]

theorem piecesAt_append_cons (sep : Char) (a b : Text) :
    (a ++ sep :: b).piecesAt sep = a.piecesAt sep ++ b.piecesAt sep :=
  pieces_append_cons (· == sep) a b (beq_self_eq_true sep)

/-- A text without cut characters is one piece. -/
theorem pieces_of_forall {cut : Char → Bool} {t : Text} (h : ∀ c ∈ t, cut c = false) :
    pieces cut t = [t] := by
  induction t with
  | nil => simp
  | cons c t ih =>
    rw [pieces_cons, ih fun d hd => h d (List.mem_cons_of_mem _ hd)]
    simp [h c List.mem_cons_self]

theorem piecesAt_of_not_mem {sep : Char} {t : Text} (h : sep ∉ t) : t.piecesAt sep = [t] :=
  pieces_of_forall fun c hc => by simpa using fun he : c = sep => h (he ▸ hc)

/-- A text is one piece, or a piece, a cut character and a text. -/
theorem pieces_induction (cut : Char → Bool) {P : Text → Prop}
    (piece : ∀ p : Text, (∀ c ∈ p, cut c = false) → P p)
    (step : ∀ (p : Text) (c : Char) (t : Text), (∀ d ∈ p, cut d = false) → cut c = true → P t →
      P (p ++ c :: t)) (t : Text) : P t := by
  induction h : t.length using Nat.strongRecOn generalizing t with
  | ind n ih =>
    have hsplit := List.takeWhile_append_dropWhile (p := fun c => !cut c) (l := t)
    have htake : ∀ c ∈ t.takeWhile (fun c => !cut c), cut c = false := fun c hc => by
      simpa using List.all_eq_true.1 List.all_takeWhile c hc
    cases hd : t.dropWhile (fun c => !cut c) with
    | nil =>
      rw [hd, List.append_nil] at hsplit
      rw [← hsplit]
      exact piece _ htake
    | cons c rest =>
      have hc : cut c = true := by
        have := List.head_dropWhile_not (fun c => !cut c) (l := t) (by simp [hd])
        simpa [hd] using this
      rw [hd] at hsplit
      have hlen : rest.length < n := by
        have := congrArg List.length hsplit
        rw [List.length_append, List.length_cons] at this
        omega
      rw [← hsplit]
      exact step _ c rest htake hc (ih _ hlen rest rfl)

/-- A text holds the characters of its pieces. -/
theorem mem_of_mem_pieces {cut : Char → Bool} {t p : Text} (h : p ∈ t.pieces cut) {c : Char}
    (hc : c ∈ p) : c ∈ t := by
  induction t using pieces_induction cut with
  | piece q hq =>
    rw [pieces_of_forall hq, List.mem_singleton] at h
    exact h ▸ hc
  | step q d t hq hd ih =>
    rw [pieces_append_cons cut q t hd, pieces_of_forall hq] at h
    rcases List.mem_cons.1 h with rfl | h
    · exact List.mem_append_left _ hc
    · exact List.mem_append_right _ (List.mem_cons_of_mem _ (ih h))

/-- Pieces set with the cut character between neighbours are the text again. -/
theorem intercalate_piecesAt (sep : Char) (t : Text) :
    List.intercalate [sep] (t.piecesAt sep) = t := by
  induction t using pieces_induction (· == sep) with
  | piece p hp => simp [piecesAt, pieces_of_forall hp, List.intercalate]
  | step p c t hp hc ih =>
    obtain ⟨q, ps, hq⟩ := List.exists_cons_of_ne_nil (pieces_ne_nil (· == sep) t)
    rw [piecesAt, hq] at ih
    rw [piecesAt, pieces_append_cons (· == sep) p t hc, pieces_of_forall hp, hq, beq_iff_eq.1 hc]
    conv => rhs; rw [← ih]
    simp [List.intercalate]

/-! ## Words -/

@[simp]
theorem words_nil : words [] = [] := rfl

theorem words_append_cons (a b : Text) {c : Char} (hc : isSpace c = true) :
    words (a ++ c :: b) = words a ++ words b := by
  rw [words, pieces_append_cons isSpace a b hc, List.filter_append]
  rfl

theorem words_cons_space (t : Text) {c : Char} (hc : isSpace c = true) :
    words (c :: t) = words t := words_append_cons [] t hc

/-- A text of white space has no words. -/
theorem words_of_isBlank {t : Text} (h : t.isBlank = true) : t.words = [] := by
  induction t with
  | nil => rfl
  | cons c t ih =>
    simp only [isBlank, List.all_cons, Bool.and_eq_true] at h
    rw [words_cons_space t h.1]
    exact ih h.2

/-- White space before a text adds no words. -/
theorem words_blank_append {a : Text} (h : a.isBlank = true) (b : Text) :
    words (a ++ b) = words b := by
  induction a with
  | nil => rfl
  | cons c a ih =>
    simp only [isBlank, List.all_cons, Bool.and_eq_true] at h
    rw [List.cons_append, words_cons_space _ h.1]
    exact ih h.2

/-- White space after a text adds no words. -/
theorem words_append_blank (a : Text) {b : Text} (h : b.isBlank = true) :
    words (a ++ b) = words a := by
  cases b with
  | nil => rw [List.append_nil]
  | cons c b =>
    simp only [isBlank, List.all_cons, Bool.and_eq_true] at h
    rw [words_append_cons a b h.1, words_of_isBlank h.2, List.append_nil]

/-- Blank texts have no words to lose. -/
theorem flatMap_words_filter_isBlank (ls : List Text) :
    (ls.filter (!·.isBlank)).flatMap words = ls.flatMap words := by
  induction ls with
  | nil => rfl
  | cons line ls ih =>
    cases h : line.isBlank with
    | true =>
      rw [List.filter_cons_of_neg (by simp [h]), ih, List.flatMap_cons, words_of_isBlank h,
        List.nil_append]
    | false => rw [List.filter_cons_of_pos (by simp [h]), List.flatMap_cons, List.flatMap_cons, ih]

/-- A word is not empty and holds no white space. -/
theorem mem_words {t w : Text} (h : w ∈ t.words) : w ≠ [] ∧ ∀ c ∈ w, isSpace c = false := by
  obtain ⟨hp, hw⟩ := List.mem_filter.1 h
  exact ⟨by simpa using hw, fun c hc => not_mem_of_mem_pieces hp hc⟩

/-- A text holds the characters of its words. -/
theorem mem_of_mem_words {t w : Text} (h : w ∈ t.words) {c : Char} (hc : c ∈ w) : c ∈ t :=
  mem_of_mem_pieces (List.mem_filter.1 h).1 hc

/-- A text that holds no white space is one word. -/
theorem words_of_forall {w : Text} (hw : w ≠ []) (h : ∀ c ∈ w, isSpace c = false) :
    w.words = [w] := by
  simp [words, pieces_of_forall h, hw]

theorem flatMap_words_words (t : Text) : t.words.flatMap words = t.words := by
  have h : ∀ ws : List Text, (∀ w ∈ ws, w.words = [w]) → ws.flatMap words = ws := by
    intro ws hw
    induction ws with
    | nil => rfl
    | cons w ws ih =>
      rw [List.flatMap_cons, hw w List.mem_cons_self,
        ih fun v hv => hw v (List.mem_cons_of_mem _ hv), List.singleton_append]
  refine h _ ?_
  intro w hw
  obtain ⟨h1, h2⟩ := mem_words hw
  exact words_of_forall h1 h2

/-! ## Texts side by side, and lines -/

theorem isBlank_append (a b : Text) : (a ++ b).isBlank = (a.isBlank && b.isBlank) :=
  List.all_append

/-- A property of all characters of a text, tested. -/
theorem forall_mem_of_all {P : Char → Prop} [DecidablePred P] {t : Text}
    (h : t.all (fun c => P c) = true) : ∀ c ∈ t, P c := fun c hc =>
  of_decide_eq_true (List.all_eq_true.1 h c hc)

theorem forall_mem_spaces {P : Char → Prop} (h : P ' ') (n : Nat) : ∀ c ∈ spaces n, P c :=
  fun _ hc => List.eq_of_mem_replicate hc ▸ h

theorem isBlank_spaces (n : Nat) : (spaces n).isBlank = true :=
  List.all_eq_true.2 (forall_mem_spaces (by decide) n)

@[simp]
theorem words_spaces_append (n : Nat) (t : Text) : words (spaces n ++ t) = words t :=
  words_blank_append (isBlank_spaces n) t

/-- At least one space separates words. -/
theorem words_append_spaces_append (a b : Text) {n : Nat} (hn : 0 < n) :
    words (a ++ spaces n ++ b) = words a ++ words b := by
  obtain ⟨m, rfl⟩ := Nat.exists_eq_succ_of_ne_zero (Nat.ne_of_gt hn)
  have h : a ++ spaces (m + 1) ++ b = a ++ ' ' :: (spaces m ++ b) := by
    simp [spaces, List.replicate_succ]
  rw [h, words_append_cons a _ (by decide), words_spaces_append]

theorem joinWords_cons_cons (a b : Text) (ts : List Text) :
    joinWords (a :: b :: ts) = a ++ ' ' :: joinWords (b :: ts) := by
  simp [joinWords, List.intercalate]

theorem joinLines_cons_cons (a b : Text) (ts : List Text) :
    joinLines (a :: b :: ts) = a ++ '\n' :: joinLines (b :: ts) := by
  simp [joinLines, List.intercalate]

@[simp]
theorem joinWords_nil : joinWords [] = [] := rfl

@[simp]
theorem joinWords_singleton (t : Text) : joinWords [t] = t := by
  simp [joinWords, List.intercalate]

@[simp]
theorem joinLines_nil : joinLines [] = [] := rfl

@[simp]
theorem joinLines_singleton (t : Text) : joinLines [t] = t := by
  simp [joinLines, List.intercalate]

/-- Words after others are set after a space. -/
theorem joinWords_append {a b : List Text} (ha : a ≠ []) (hb : b ≠ []) :
    joinWords (a ++ b) = joinWords a ++ ' ' :: joinWords b := by
  induction a with
  | nil => exact absurd rfl ha
  | cons v a ih =>
    cases a with
    | nil =>
      obtain ⟨w, b, rfl⟩ := List.exists_cons_of_ne_nil hb
      rw [List.singleton_append, joinWords_cons_cons, joinWords_singleton]
    | cons u a =>
      rw [List.cons_append, List.cons_append, joinWords_cons_cons, joinWords_cons_cons,
        List.append_assoc, List.cons_append, ← ih (List.cons_ne_nil u a), List.cons_append]

/-- Words joined group by group are words joined. -/
theorem joinWords_map_joinWords {gs : List (List Text)} (h : ∀ g ∈ gs, g ≠ []) :
    joinWords (gs.map joinWords) = joinWords gs.flatten := by
  induction gs with
  | nil => rfl
  | cons g gs ih =>
    obtain ⟨hg, hgs⟩ := List.forall_mem_cons.1 h
    cases gs with
    | nil => simp
    | cons g' gs =>
      have hflatten : (g' :: gs).flatten ≠ [] := by
        obtain ⟨hg', -⟩ := List.forall_mem_cons.1 hgs
        simp [hg']
      rw [List.flatten_cons, joinWords_append hg hflatten, ← ih hgs, List.map_cons, List.map_cons,
        joinWords_cons_cons]

theorem isBlank_joinWords (ws : List Text) : (joinWords ws).isBlank = ws.all isBlank := by
  induction ws with
  | nil => rfl
  | cons w ws ih =>
    cases ws with
    | nil => simp
    | cons v ws =>
      have hspace : isBlank (' ' :: joinWords (v :: ws)) = (joinWords (v :: ws)).isBlank := by
        rw [isBlank, List.all_cons]
        rfl
      rw [joinWords_cons_cons, isBlank_append, hspace, ih]
      rfl

/-- What is set with a separator between neighbours is of the parts or of the separator. -/
theorem forall_mem_intercalate {α : Type} {Q : α → Prop} {sep : List α} {parts : List (List α)}
    (hsep : ∀ x ∈ sep, Q x) (h : ∀ part ∈ parts, ∀ x ∈ part, Q x) :
    ∀ x ∈ List.intercalate sep parts, Q x := by
  induction parts with
  | nil => simp
  | cons part parts ih =>
    obtain ⟨hpart, hparts⟩ := List.forall_mem_cons.1 h
    cases parts with
    | nil => rwa [List.intercalate_singleton]
    | cons next parts =>
      rw [List.intercalate_cons_cons]
      exact List.forall_mem_append.2 ⟨List.forall_mem_append.2 ⟨hpart, hsep⟩, ih hparts⟩

/-- Words joined are empty only if there are none. -/
theorem isEmpty_joinWords {ws : List Text} (h : ∀ w ∈ ws, w ≠ []) :
    (joinWords ws).isEmpty = ws.isEmpty := by
  cases ws with
  | nil => rfl
  | cons w ws =>
    have hw : w ≠ [] := h w List.mem_cons_self
    cases ws with
    | nil => simpa using hw
    | cons v ws => simp [joinWords_cons_cons]

theorem mem_joinWords {ts : List Text} {t : Text} (ht : t ∈ ts) {c : Char} (hc : c ∈ t) :
    c ∈ joinWords ts := by
  induction ts with
  | nil => cases ht
  | cons u ts ih =>
    cases ts with
    | nil =>
      rw [List.mem_singleton] at ht
      simpa [ht] using hc
    | cons v ts =>
      rw [joinWords_cons_cons]
      rcases List.mem_cons.1 ht with rfl | ht
      · exact List.mem_append_left _ hc
      · exact List.mem_append_right _ (List.mem_cons_of_mem _ (ih ht))

/-- Parts set with one character between neighbours are read back if none holds that character. -/
theorem piecesAt_intercalate {sep : Char} {ps : List Text} (hne : ps ≠ [])
    (h : ∀ p ∈ ps, sep ∉ p) : piecesAt sep (List.intercalate [sep] ps) = ps := by
  induction ps with
  | nil => exact absurd rfl hne
  | cons p ps ih =>
    obtain ⟨hp, hps⟩ := List.forall_mem_cons.1 h
    cases ps with
    | nil => rw [List.intercalate_singleton, piecesAt_of_not_mem hp]
    | cons q ps =>
      rw [List.intercalate_cons_cons, List.append_assoc, List.singleton_append,
        piecesAt_append_cons, piecesAt_of_not_mem hp, ih (List.cons_ne_nil q ps) hps,
        List.singleton_append]

/-- Joined lines are read back if none holds a newline. -/
theorem piecesAt_joinLines {ls : List Text} (hne : ls ≠ []) (h : ∀ l ∈ ls, '\n' ∉ l) :
    (joinLines ls).piecesAt '\n' = ls := piecesAt_intercalate hne h

theorem words_joinWords : ∀ ts : List Text, words (joinWords ts) = ts.flatMap words
  | [] => rfl
  | [t] => by simp
  | a :: b :: ts => by
    rw [joinWords_cons_cons, words_append_cons _ _ (by decide), words_joinWords (b :: ts)]
    simp only [List.flatMap_cons]

theorem words_joinLines : ∀ ts : List Text, words (joinLines ts) = ts.flatMap words
  | [] => rfl
  | [t] => by simp
  | a :: b :: ts => by
    rw [joinLines_cons_cons, words_append_cons _ _ (by decide), words_joinLines (b :: ts)]
    simp only [List.flatMap_cons]

@[simp]
theorem ended_nil : ended [] = [] := rfl

theorem ended_cons (l : Text) (ls : List Text) : ended (l :: ls) = l ++ '\n' :: ended ls := by
  simp [ended]

theorem words_ended (ls : List Text) : words (ended ls) = ls.flatMap words := by
  induction ls with
  | nil => rfl
  | cons l ls ih =>
    rw [ended_cons, words_append_cons _ _ (by decide), ih, List.flatMap_cons]

/-- Cutting at white space keeps the words. -/
theorem flatMap_words_pieces {cut : Char → Bool} (hcut : ∀ c, cut c = true → isSpace c = true)
    (t : Text) : (t.pieces cut).flatMap words = t.words := by
  induction t using pieces_induction cut with
  | piece p hp => simp [pieces_of_forall hp]
  | step p c t hp hc ih =>
    rw [pieces_append_cons cut p t hc, pieces_of_forall hp, List.singleton_append,
      List.flatMap_cons, ih, words_append_cons p t (hcut c hc)]

theorem flatMap_words_piecesAt_newline (t : Text) :
    (t.piecesAt '\n').flatMap words = t.words :=
  flatMap_words_pieces (fun c hc => by rw [beq_iff_eq.1 hc]; decide) t

/-- What is dropped at the end of a text is of the class that was dropped. -/
theorem exists_append_of_dropEndWhile (p : Char → Bool) (t : Text) :
    ∃ s : Text, t = t.dropEndWhile p ++ s ∧ ∀ c ∈ s, p c = true := by
  refine ⟨(t.reverse.takeWhile p).reverse, ?_, fun c hc => ?_⟩
  · rw [dropEndWhile, ← List.reverse_append, List.takeWhile_append_dropWhile, List.reverse_reverse]
  · exact List.all_eq_true.1 List.all_takeWhile c (List.mem_reverse.1 hc)

theorem mem_of_mem_dropEndWhile {p : Char → Bool} {t : Text} {c : Char}
    (h : c ∈ t.dropEndWhile p) : c ∈ t :=
  List.mem_reverse.1 ((List.dropWhile_sublist p).subset (List.mem_reverse.1 h))

/-- Dropping white space at the end of a text keeps the words. -/
theorem words_dropEndWhile {p : Char → Bool} (hp : ∀ c, p c = true → isSpace c = true) (t : Text) :
    words (t.dropEndWhile p) = t.words := by
  obtain ⟨s, hs, hall⟩ := exists_append_of_dropEndWhile p t
  have hb : s.isBlank = true := List.all_eq_true.2 fun c hc => hp c (hall c hc)
  calc words (t.dropEndWhile p) = words (t.dropEndWhile p ++ s) := (words_append_blank _ hb).symm
    _ = words t := by rw [← hs]

theorem words_dropReturn (l : Text) : words (dropReturn l) = l.words := by
  unfold dropReturn
  split
  · rename_i h
    obtain ⟨a, rfl⟩ := List.getLast?_eq_some_iff.1 h
    rw [List.dropLast_concat]
    exact (words_append_blank a (by decide)).symm
  · rfl

/-- The lines of a text hold its words in order. -/
theorem flatMap_words_lines (t : Text) : t.lines.flatMap words = t.words := by
  have hlast : ∀ o : Option Text,
      (o.toList.filter fun l => !l.isEmpty).flatMap words = o.toList.flatMap words := by
    intro o
    cases o with
    | none => rfl
    | some l => cases l <;> rfl
  have hdrop : ∀ ps : List Text, (ps.map dropReturn).flatMap words = ps.flatMap words := by
    intro ps
    rw [List.flatMap_map]
    simp only [words_dropReturn]
  have hne : t.piecesAt '\n' ≠ [] := pieces_ne_nil (· == '\n') t
  rw [lines, List.flatMap_append, hlast, hdrop, ← List.flatMap_append,
    List.getLast?_eq_some_getLast hne, Option.toList_some, List.dropLast_concat_getLast hne]
  exact flatMap_words_piecesAt_newline t

/-! ## Without white space -/

/-- The text without its white space. -/
def unspaced (t : Text) : Text := t.filter fun c => !isSpace c

theorem unspaced_append (a b : Text) : (a ++ b).unspaced = a.unspaced ++ b.unspaced :=
  List.filter_append ..

theorem unspaced_flatten (ts : List Text) : unspaced ts.flatten = ts.flatMap unspaced := by
  rw [unspaced, List.filter_flatten, List.flatMap_def]
  rfl

/-- Nothing is left exactly of a blank text. -/
theorem unspaced_eq_nil_iff {t : Text} : t.unspaced = [] ↔ t.isBlank = true := by
  simp [unspaced, isBlank]

theorem unspaced_spaces (n : Nat) : (spaces n).unspaced = [] :=
  unspaced_eq_nil_iff.2 (isBlank_spaces n)

/-- Pieces hold the characters at which the text was not cut. -/
theorem flatten_pieces (cut : Char → Bool) (t : Text) :
    (t.pieces cut).flatten = t.filter fun c => !cut c := by
  have hkeep : ∀ {p : Text}, (∀ c ∈ p, cut c = false) → p.filter (fun c => !cut c) = p := fun hp =>
    List.filter_eq_self.2 fun c hc => by simp [hp c hc]
  induction t using pieces_induction cut with
  | piece p hp => rw [pieces_of_forall hp, hkeep hp, List.flatten_singleton]
  | step p c t hp hc ih =>
    rw [pieces_append_cons cut p t hc, pieces_of_forall hp, List.filter_append, hkeep hp,
      List.filter_cons_of_neg (by simp [hc]), ← ih, List.singleton_append, List.flatten_cons]

/-- The words of a text spell it without its white space. -/
theorem flatten_words (t : Text) : t.words.flatten = t.unspaced := by
  have hdrop : ∀ ps : List Text, (ps.filter fun w => !w.isEmpty).flatten = ps.flatten := by
    intro ps
    induction ps with
    | nil => rfl
    | cons p ps ih => cases p <;> simp [ih]
  rw [words, hdrop, flatten_pieces, unspaced]

/-- So do its pieces, cut at white space. -/
theorem flatMap_unspaced_pieces {cut : Char → Bool} (hcut : ∀ c, cut c = true → isSpace c = true)
    (t : Text) : (t.pieces cut).flatMap unspaced = t.unspaced := by
  rw [← unspaced_flatten, flatten_pieces, unspaced, List.filter_filter, unspaced]
  refine List.filter_congr fun c _ => ?_
  cases hc : cut c
  · simp
  · simp [hcut c hc]

end TextPager.Text
