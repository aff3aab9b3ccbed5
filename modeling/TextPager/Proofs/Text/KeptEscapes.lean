import TextPager.Proofs.Text.StyledFilling

/-!
# Layout keeps escape sequences

Laying out styled text moves its words to other lines, joins them with spaces, pads and cuts them.
What a terminal is told by the way must not suffer: `Text.escapes` lists the escape sequences of a
text in order, and this module shows that every step of layout keeps the list as it is. A step cuts
or joins a text where the scan is on the ground, so no sequence is taken apart; and a text that is
cut to columns keeps the sequences after the cut.

**Results.**
* `escapes_append`, `escapes_of_not_mem`: the sequences of texts side by side, and of a text without
  the escape character.
* `neat_iff`: the sequences of a neat text are complete and hold no white space.
* `flatMap_escapes_pieces`, `flatMap_escapes_words`: cutting at white space keeps them.
* `flatMap_escapes_fill`, `flatMap_escapes_wrap`, `escapes_truncate`: so do filling, wrapping and
  cutting to columns.
-/
namespace TextPager

/-- An escape sequence; none for a visible character. -/
def Segment.escape? : Segment → Option Text
  | char _ => none
  | escape e => some e

namespace Text

/-- The escape sequences of a text, in order. -/
def escapes (t : Text) : List Text := t.segments.filterMap Segment.escape?

@[simp]
theorem escapes_nil : escapes [] = [] := rfl

theorem escapes_append {a : Text} (h : a.Terminated) (b : Text) :
    (a ++ b).escapes = a.escapes ++ b.escapes := by
  rw [escapes, segments_append h, List.filterMap_append]
  rfl

theorem escapes_of_not_mem {t : Text} (h : esc ∉ t) : t.escapes = [] := by
  rw [escapes, segments_of_not_mem h, List.filterMap_map]
  exact List.filterMap_eq_nil_iff.2 fun _ _ => rfl

theorem escapes_spaces (n : Nat) : (spaces n).escapes = [] :=
  escapes_of_not_mem (not_mem_spaces (by decide) n)

theorem escapes_spaces_append (n : Nat) (t : Text) : (spaces n ++ t).escapes = t.escapes := by
  rw [escapes_append (flat_spaces n).terminated, escapes_spaces, List.nil_append]

theorem escapes_cons_space {c : Char} (hc : isSpace c = true) (t : Text) :
    escapes (c :: t) = t.escapes := by
  have hn : esc ∉ [c] := by
    rw [List.mem_singleton]
    exact (ne_esc_of_isSpace hc).symm
  have h := escapes_append (terminated_of_not_mem hn) t
  rwa [escapes_of_not_mem hn] at h

theorem escapes_pad {t : Text} (h : t.Terminated) (n : Nat) : (t.pad n).escapes = t.escapes := by
  rw [pad, escapes_append h, escapes_spaces, List.append_nil]

/-! ## Neat texts -/

/-- From any state of the scan: what is left of the sequence it stands in and the sequences after it
hold no white space. -/
theorem neatFrom_iff (s : Scan) (t : Text) :
    NeatFrom s t ↔ s.run t = .ground ∧ (∀ c ∈ (segmentsFrom s t).1, isSpace c = false) ∧
      ∀ e ∈ (segmentsFrom s t).2.filterMap Segment.escape?, ∀ c ∈ e, isSpace c = false := by
  induction t generalizing s with
  | nil => simp [NeatFrom, Scan.run, segmentsFrom]
  | cons c t ih =>
    have hrun : s.run (c :: t) = (s.next c).run t := rfl
    rw [NeatFrom, ih, hrun, segmentsFrom]
    by_cases hs : s = .ground
    · subst hs
      by_cases hn : Scan.ground.next c = .ground
      · have hnil := (ofSegments_segmentsFrom .ground t).2 rfl
        simp [hn, hnil, Segment.escape?]
      · have hc : isSpace c = false := by
          by_contra hc
          exact hn (Scan.next_ground (ne_esc_of_isSpace (by simpa using hc)))
        simp [hn, hc, Segment.escape?]
    · simp [hs, and_left_comm, and_assoc]

/-- A text is neat exactly if its escape sequences are complete and hold no white space. -/
theorem neat_iff (t : Text) :
    t.Neat ↔ t.Terminated ∧ ∀ e ∈ t.escapes, ∀ c ∈ e, isSpace c = false := by
  have hnil := (ofSegments_segmentsFrom .ground t).2 rfl
  rw [Neat, neatFrom_iff, hnil, Terminated, escapes, segments]
  simp

/-! ## Words -/

theorem escapes_joinWords {ws : List Text} (h : ∀ w ∈ ws, w.Terminated) :
    (joinWords ws).escapes = ws.flatMap escapes := by
  induction ws with
  | nil => rfl
  | cons w ws ih =>
    obtain ⟨hw, hws⟩ := List.forall_mem_cons.1 h
    cases ws with
    | nil => simp
    | cons v ws =>
      rw [joinWords_cons_cons, escapes_append hw, escapes_cons_space (by decide), ih hws]
      rfl

/-- Cutting a neat text at white space keeps its sequences. -/
theorem flatMap_escapes_pieces {cut : Char → Bool} (hcut : ∀ c, cut c = true → isSpace c = true)
    {t : Text} (h : t.Neat) : (t.pieces cut).flatMap escapes = t.escapes := by
  induction t using pieces_induction cut with
  | piece p hp => simp [pieces_of_forall hp]
  | step p c t hp hc ih =>
    obtain ⟨h1, h2⟩ := h.split (hcut c hc)
    rw [pieces_append_cons cut p t hc, pieces_of_forall hp, List.singleton_append,
      List.flatMap_cons, ih h2, escapes_append h1.terminated, escapes_cons_space (hcut c hc)]

theorem flatMap_escapes_words {t : Text} (h : t.Neat) : t.words.flatMap escapes = t.escapes := by
  have hdrop : ∀ ps : List Text,
      (ps.filter fun w => !w.isEmpty).flatMap escapes = ps.flatMap escapes := by
    intro ps
    induction ps with
    | nil => rfl
    | cons p ps ih => cases p <;> simp [ih]
  rw [words, hdrop, flatMap_escapes_pieces (fun _ hc => hc) h]

theorem escapes_joinWords_words {t : Text} (h : t.Neat) :
    (joinWords t.words).escapes = t.escapes := by
  rw [escapes_joinWords fun w hw => (mem_words_neat h hw).terminated, flatMap_escapes_words h]

/-! ## Lines -/

theorem flatMap_escapes_setGroups (n : Nat) {gs : List (List Text)}
    (h : ∀ g ∈ gs, ∀ u ∈ g, u.Terminated) :
    (setGroups (spaces n) gs).flatMap escapes = gs.flatten.flatMap escapes := by
  have hjoin : ∀ gs : List (List Text), (∀ g ∈ gs, ∀ u ∈ g, u.Terminated) →
      (gs.map joinWords).flatMap escapes = gs.flatten.flatMap escapes := by
    intro gs h
    induction gs with
    | nil => rfl
    | cons g gs ih =>
      obtain ⟨hg, hgs⟩ := List.forall_mem_cons.1 h
      simp only [List.map_cons, List.flatMap_cons, List.flatten_cons, List.flatMap_append,
        escapes_joinWords hg, ih hgs]
  cases gs with
  | nil => rfl
  | cons g gs =>
    rw [setGroups, List.flatMap_cons, escapes_spaces_append, ← hjoin _ h, List.map_cons,
      List.flatMap_cons]

/-- Filled lines keep the sequences of the units. -/
theorem flatMap_escapes_fill {us : List Text} (h : ∀ u ∈ us, u.Terminated) (lead first rest : Nat) :
    (fill us lead first rest false).flatMap escapes = us.flatMap escapes := by
  rw [fill_eq, flatMap_escapes_setGroups _ fun g hg u hu => h u (mem_of_mem_groups hg hu),
    flatten_groups]

/-- Wrapped lines keep the sequences of the text. -/
theorem flatMap_escapes_wrap {t : Text} (h : t.Neat) (n : Nat) :
    (t.wrap n).flatMap escapes = t.escapes := by
  have hw : ∀ w ∈ t.words, Terminated w := fun w hw => (mem_words_neat h hw).terminated
  rw [wrap, wrapWith, flatMap_escapes_fill hw, flatMap_escapes_words h]

theorem filterMap_escape?_keepVisible (n : Nat) (gs : List Segment) :
    (keepVisible n gs).filterMap Segment.escape? = gs.filterMap Segment.escape? := by
  fun_induction keepVisible n gs with
  | case1 => rfl
  | case2 n e gs ih => exact congrArg (e :: ·) ih
  | case3 c gs ih => exact ih
  | case4 n c gs ih => exact ih

/-- A text cut to columns keeps all sequences, those after the cut too. -/
theorem escapes_truncate (t : Text) (n : Nat) : (t.truncate n).escapes = t.escapes := by
  rw [escapes, segments_truncate, filterMap_escape?_keepVisible, escapes]

/-- A carriage return at the end of a line is no part of a sequence. -/
theorem escapes_dropReturn {t : Text} (h : t.Neat) : (dropReturn t).escapes = t.escapes := by
  unfold dropReturn
  split
  · rename_i hl
    obtain ⟨a, rfl⟩ := List.getLast?_eq_some_iff.1 hl
    have ha := (h.split (b := []) (c := '\r') (by decide)).1
    have hreturn : escapes ['\r'] = [] := escapes_of_not_mem (by decide)
    rw [List.dropLast_concat, escapes_append ha.terminated, hreturn, List.append_nil]
  · rfl

end Text

end TextPager
