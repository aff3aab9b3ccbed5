import TextPager.Proofs.Text.Breaking

/-!
# The pieces of a broken word

A word is broken in a loop over what is left of it. On a full line a turn ends the line and places
nothing; otherwise it cuts off as much as the line has room for and sets that piece.
`Filler.BreaksInto` is the loop, run until nothing is left, with the number of its turns and the
pieces it sets, each beside the filler just after.

Every turn reads what is left anew, while `Filler.Breaks` splits the segments of the word, read once.
The two make the same turns: what a cut leaves of a text is read as it was read before the cut.

A turn that places nothing leaves an empty line, and an empty line has room for something. So no two
such turns follow each other, and the number of pieces bounds the number of turns.

**Results.**
* `Text.width_cutAt_of_snd_ne_nil`: a cut that leaves something is made after as many columns as were
  asked for.
* `Filler.Breaks.breaksInto`, `Filler.BreaksInto.unique`: breaking the segments of a word is a run of
  the loop, and the only one.
* `Filler.BreaksInto.turns_le`: at most every second turn only ends a line.
* `Filler.BreaksInto.full`, `Filler.BreaksInto.done_eq`: every piece but the last fills its line, and
  these are the lines that are finished; a lead alone leaves none.
* `Filler.pushBreaking_fills`: breaking a word ends, and fills lines.
-/
namespace TextPager

namespace Text

/-! ## Cutting a text -/

/-- A text cut after so many columns. Escape sequences at the cut belong to the first part. -/
def cutAt (t : Text) (n : Nat) : Text × Text :=
  (ofSegments (splitVisible n t.segments).1, ofSegments (splitVisible n t.segments).2)

/-- What stands before a visible character that is left behind takes all the columns. -/
theorem countP_splitVisible_of_snd_ne_nil {n : Nat} {ss : List Segment}
    (h : (splitVisible n ss).2 ≠ []) : (splitVisible n ss).1.countP Segment.isChar = n := by
  fun_induction splitVisible n ss with
  | case1 n => exact absurd rfl h
  | case2 n e ss head tail hsplit ih =>
    rw [hsplit] at ih
    rw [List.countP_cons_of_neg Bool.false_ne_true]
    exact ih h
  | case3 c ss => rfl
  | case4 n c ss head tail hsplit ih =>
    rw [hsplit] at ih
    rw [List.countP_cons_of_pos rfl]
    exact congrArg (· + 1) (ih h)

theorem Legible.split {ss : List Segment} (h : Legible ss) (n : Nat) :
    Legible (splitVisible n ss).1 ∧ Legible (splitVisible n ss).2 := by
  have hsplit := h
  rw [← splitVisible_append n ss] at hsplit
  exact ⟨hsplit.sublist (List.sublist_append_left _ _), hsplit.sublist (List.sublist_append_right _ _)⟩

theorem Legible.width_ofSegments {ss : List Segment} (h : Legible ss) :
    (ofSegments ss).width = ss.countP Segment.isChar := by
  rw [width, h.segments_ofSegments]

theorem Legible.ofSegments_eq_nil_iff {ss : List Segment} (h : Legible ss) :
    ofSegments ss = [] ↔ ss = [] := by
  refine ⟨fun hnil => ?_, fun hnil => by rw [hnil]; rfl⟩
  rw [← h.segments_ofSegments, hnil]
  rfl

/-- Segments that are read back are cut as the text they spell. -/
theorem Legible.cutAt_ofSegments {ss : List Segment} (h : Legible ss) (n : Nat) :
    (ofSegments ss).cutAt n =
      (ofSegments (splitVisible n ss).1, ofSegments (splitVisible n ss).2) := by
  rw [cutAt, h.segments_ofSegments]

/-- A cut loses nothing. -/
theorem cutAt_append (t : Text) (n : Nat) : (t.cutAt n).1 ++ (t.cutAt n).2 = t := by
  rw [cutAt, ← ofSegments_append, splitVisible_append, ofSegments_segments]

/-- A cut after at least one column takes something. -/
theorem cutAt_fst_ne_nil {t : Text} {n : Nat} (ht : t ≠ []) (hn : 0 < n) : (t.cutAt n).1 ≠ [] := by
  have hsegments : t.segments ≠ [] := fun h => ht (by rw [← ofSegments_segments t, h]; rfl)
  have hhead := ((legible_segments t).split n).1
  exact mt hhead.ofSegments_eq_nil_iff.1 (splitVisible_fst_ne_nil hsegments hn)

theorem width_cutAt (t : Text) (n : Nat) :
    (t.cutAt n).1.width = (splitVisible n t.segments).1.countP Segment.isChar :=
  ((legible_segments t).split n).1.width_ofSegments

theorem width_cutAt_le (t : Text) (n : Nat) : (t.cutAt n).1.width ≤ n := by
  rw [width_cutAt]
  exact countP_splitVisible_le n t.segments

/-- If a cut leaves something, its first part takes all the columns. -/
theorem width_cutAt_of_snd_ne_nil {t : Text} {n : Nat} (h : (t.cutAt n).2 ≠ []) :
    (t.cutAt n).1.width = n := by
  have htail := ((legible_segments t).split n).2
  rw [width_cutAt]
  exact countP_splitVisible_of_snd_ne_nil (mt htail.ofSegments_eq_nil_iff.2 h)

end Text

namespace Filler

/-! ## Setting a piece -/

/-- A piece of a word that was set, and the filler just after. -/
structure Placement where
  piece : Text
  after : Filler
  deriving DecidableEq, Repr

/-- Sets as much of what is left of a word as the current line has room for. -/
def placeStart (f : Filler) (left : Text) : Placement :=
  let piece := (left.cutAt f.room).1
  { piece, after := f.push piece piece.width }

/-- A piece that there is room for goes on the current line, beside what stands there. -/
theorem push_of_room {f : Filler} {columns : Nat} (hroom : f.room ≠ 0) (h : columns ≤ f.room)
    (word : Text) : f.push word columns = f.append word columns := by
  have hfit : f.used + f.gap + columns ≤ f.width := by
    unfold room at hroom h
    omega
  by_cases hwords : f.words = 0
  · have hlead : ¬f.width < f.used + columns := by simpa [gap, hwords] using hfit
    simp [push, dropLead, hwords, hlead]
  · have hline : ¬f.width < f.used + 1 + columns := by simpa [gap, hwords] using hfit
    simp [push, dropLead, hwords, hline]

variable {f g : Filler} {left : Text}

theorem after_placeStart (hroom : f.room ≠ 0) (left : Text) :
    (f.placeStart left).after =
      f.append (left.cutAt f.room).1 (left.cutAt f.room).1.width :=
  push_of_room hroom (Text.width_cutAt_le left f.room) _

/-- A piece stands on the line it is set on, within its width. -/
theorem placeStart_fits (hroom : f.room ≠ 0) (hleft : left ≠ []) :
    (f.placeStart left).piece ≠ [] ∧
      (f.placeStart left).piece <:+ (f.placeStart left).after.current ∧
      (f.placeStart left).after.used ≤ (f.placeStart left).after.width := by
  rw [after_placeStart hroom]
  refine ⟨Text.cutAt_fst_ne_nil hleft (Nat.pos_of_ne_zero hroom), List.suffix_append _ _, ?_⟩
  have hwidth := Text.width_cutAt_le left f.room
  show f.used + f.gap + (left.cutAt f.room).1.width ≤ f.width
  unfold room at hroom hwidth ⊢
  omega

/-- A piece that is not the last fills its line. -/
theorem placeStart_full (hroom : f.room ≠ 0) (htail : (left.cutAt f.room).2 ≠ []) :
    (f.placeStart left).after.used = (f.placeStart left).after.width := by
  rw [after_placeStart hroom]
  have hwidth := Text.width_cutAt_of_snd_ne_nil htail
  show f.used + f.gap + (left.cutAt f.room).1.width = f.width
  unfold room at hroom hwidth ⊢
  omega

/-! ## The loop -/

/-- The loop that breaks a word, run until nothing is left: in so many turns a filler sets what is
left of the word as these pieces, and becomes another. -/
inductive BreaksInto : Filler → Text → Nat → List Placement → Filler → Prop where
  | done (f : Filler) : BreaksInto f [] 0 [] f
  | endLine {f g : Filler} {left : Text} {turns : Nat} {ps : List Placement} (hleft : left ≠ [])
      (hroom : f.room = 0) (h : BreaksInto f.flush left turns ps g) :
      BreaksInto f left (turns + 1) ps g
  | place {f g : Filler} {left : Text} {turns : Nat} {ps : List Placement} (hleft : left ≠ [])
      (hroom : f.room ≠ 0)
      (h : BreaksInto (f.placeStart left).after (left.cutAt f.room).2 turns ps g) :
      BreaksInto f left (turns + 1) (f.placeStart left :: ps) g

variable {turns : Nat} {ps : List Placement}

/-- The loop has one run. -/
theorem BreaksInto.unique (h : BreaksInto f left turns ps g) {turns' : Nat} {ps' : List Placement}
    {g' : Filler} (h' : BreaksInto f left turns' ps' g') : turns = turns' ∧ ps = ps' ∧ g = g' := by
  induction h generalizing turns' ps' with
  | done f =>
    cases h' with
    | done => exact ⟨rfl, rfl, rfl⟩
    | endLine hleft => exact absurd rfl hleft
    | place hleft => exact absurd rfl hleft
  | endLine hleft hroom _ ih =>
    cases h' with
    | done => exact absurd rfl hleft
    | endLine _ _ h' =>
      obtain ⟨rfl, rfl, rfl⟩ := ih h'
      exact ⟨rfl, rfl, rfl⟩
    | place _ hroom' => exact absurd hroom hroom'
  | place hleft hroom _ ih =>
    cases h' with
    | done => exact absurd rfl hleft
    | endLine _ hroom' => exact absurd hroom' hroom
    | place _ _ h' =>
      obtain ⟨rfl, rfl, rfl⟩ := ih h'
      exact ⟨rfl, rfl, rfl⟩

/-- Breaking segments that are read back is a run of the loop over the text they spell. -/
theorem Breaks.breaksInto {ss : List Segment} (h : Breaks f ss g) (hss : Text.Legible ss) :
    ∃ turns ps, BreaksInto f (Text.ofSegments ss) turns ps g := by
  induction h with
  | done f => exact ⟨0, [], .done f⟩
  | @turn f g ss hne _ ih =>
    have hleft : Text.ofSegments ss ≠ [] := mt hss.ofSegments_eq_nil_iff.1 hne
    unfold breakTurn at ih
    by_cases hroom : f.room = 0
    · rw [if_pos hroom] at ih
      obtain ⟨turns, ps, hrun⟩ := ih hss
      exact ⟨turns + 1, ps, .endLine hleft hroom hrun⟩
    · obtain ⟨hhead, htail⟩ := hss.split f.room
      rw [if_neg hroom] at ih
      obtain ⟨turns, ps, hrun⟩ := ih htail
      refine ⟨turns + 1, f.placeStart (Text.ofSegments ss) :: ps, .place hleft hroom ?_⟩
      rw [placeStart, hss.cutAt_ofSegments, hhead.width_ofSegments]
      exact hrun

/-! ## What a run does -/

/-- The pieces are what was left of the word, in order. -/
theorem BreaksInto.flatten_pieces (h : BreaksInto f left turns ps g) :
    (ps.map Placement.piece).flatten = left := by
  induction h with
  | done f => rfl
  | endLine _ _ _ ih => exact ih
  | place _ _ _ ih =>
    rw [List.map_cons, List.flatten_cons, ih]
    exact Text.cutAt_append _ _

theorem BreaksInto.of_nil (h : BreaksInto f [] turns ps g) : ps = [] ∧ g = f := by
  cases h with
  | done => exact ⟨rfl, rfl⟩
  | endLine hleft => exact absurd rfl hleft
  | place hleft => exact absurd rfl hleft

theorem BreaksInto.pieces_eq_nil_iff (h : BreaksInto f left turns ps g) : ps = [] ↔ left = [] := by
  constructor
  · rintro rfl
    exact h.flatten_pieces.symm
  · rintro rfl
    exact h.of_nil.1

/-- At most every second turn only ends a line. A run that does not begin with such a turn has fewer
turns. -/
theorem BreaksInto.turns_le (h : BreaksInto f left turns ps g) (hfirst : 0 < f.first)
    (hrest : 0 < f.rest) :
    turns ≤ 2 * ps.length ∧ (left ≠ [] → f.room ≠ 0 → turns < 2 * ps.length) := by
  induction h with
  | done f => exact ⟨Nat.le_refl 0, fun hleft => absurd rfl hleft⟩
  | @endLine f g left turns ps hleft hroom h ih =>
    have hflush : f.flush.room ≠ 0 := by
      rw [room_flush]
      exact Nat.ne_of_gt (width_flush_pos f hfirst hrest)
    exact ⟨(ih hfirst hrest).2 hleft hflush, fun _ hroom' => absurd hroom hroom'⟩
  | place hleft hroom h ih =>
    have hle := (ih (by rwa [placeStart, first_push]) (by rwa [placeStart, rest_push])).1
    rw [List.length_cons]
    exact ⟨by omega, fun _ _ => by omega⟩

/-- Every piece stands on its line, within the width of the line. -/
theorem BreaksInto.fits (h : BreaksInto f left turns ps g) :
    ∀ p ∈ ps, p.piece ≠ [] ∧ p.piece <:+ p.after.current ∧ p.after.used ≤ p.after.width := by
  induction h with
  | done f => exact fun p hp => by cases hp
  | endLine _ _ _ ih => exact ih
  | place hleft hroom _ ih => exact List.forall_mem_cons.2 ⟨placeStart_fits hroom hleft, ih⟩

/-- Every piece but the last fills its line. -/
theorem BreaksInto.full (h : BreaksInto f left turns ps g) :
    ∀ p ∈ ps.dropLast, p.after.used = p.after.width := by
  induction h with
  | done f => exact fun p hp => by cases hp
  | endLine _ _ _ ih => exact ih
  | @place f g left turns ps hleft hroom h ih =>
    -- Without pieces after this one it is the last, and nothing is claimed of it.
    by_cases hps : ps = []
    · subst hps
      exact fun p hp => by cases hp
    · rw [List.dropLast_cons_of_ne_nil hps]
      exact List.forall_mem_cons.2 ⟨placeStart_full hroom (mt h.pieces_eq_nil_iff.2 hps), ih⟩

/-- A line that was ended is not ended again. -/
theorem flush_flush (f : Filler) : f.flush.flush = f.flush := rfl

/-- The lines a run finishes: the current one, if it is full and has words, and then those of the
pieces, but for the last. -/
theorem BreaksInto.done_eq (h : BreaksInto f left turns ps g) (hleft : left ≠ []) :
    g.done = (ps.dropLast.map fun p => p.after.current).reverse ++
      if f.room = 0 then f.flush.done else f.done := by
  induction h with
  | done f => exact absurd rfl hleft
  | @endLine f g left turns ps _ hroom h ih =>
    rw [ih hleft, if_pos hroom, flush_flush, ite_self]
  | @place f g left turns ps _ hroom h ih =>
    have hafter := after_placeStart hroom left
    rw [if_neg hroom]
    by_cases hps : ps = []
    · have htail := h.pieces_eq_nil_iff.1 hps
      rw [htail] at h
      rw [hps, h.of_nil.2, hafter]
      rfl
    -- The turn after this one ends the line that the piece has filled.
    · have htail := mt h.pieces_eq_nil_iff.2 hps
      have hfull : (f.placeStart left).after.room = 0 := by
        rw [room, placeStart_full hroom htail]
        omega
      have hflush : (f.placeStart left).after.flush.done =
          (f.placeStart left).after.current :: f.done := by
        rw [hafter]
        rfl
      rw [ih htail, if_pos hfull, hflush, List.dropLast_cons_of_ne_nil hps, List.map_cons,
        List.reverse_cons, List.append_assoc, List.singleton_append]

/-- The lines that the pieces fill are the last to be finished. -/
theorem BreaksInto.filled_prefix (h : BreaksInto f left turns ps g) :
    (ps.dropLast.map fun p => p.after.current).reverse <+: g.done := by
  by_cases hleft : left = []
  · rw [h.pieces_eq_nil_iff.2 hleft]
    exact List.nil_prefix
  · exact ⟨_, (h.done_eq hleft).symm⟩

/-- **Breaking a word ends, and fills lines.** From every filler whose lines have a column, with any
lead and any words set before, the loop over any word, escape sequences or not, runs to an end, and to
no other end than the broken word. It makes at most two turns for each piece. The pieces, none of them
empty, spell the word; each is set at the end of its line and within the width of it; and every piece
but the last fills its line to the width. The lines filled so are the last ones finished. -/
theorem pushBreaking_fills (hfirst : 0 < f.first) (hrest : 0 < f.rest) (word : Text) :
    (∃ turns ps, BreaksInto f word turns ps (f.pushBreaking word)) ∧
      ∀ turns ps g, BreaksInto f word turns ps g →
        g = f.pushBreaking word ∧ turns ≤ 2 * ps.length ∧
        (ps.map Placement.piece).flatten = word ∧
        (∀ p ∈ ps, p.piece ≠ [] ∧ p.piece <:+ p.after.current ∧ p.after.used ≤ p.after.width) ∧
        (∀ p ∈ ps.dropLast, p.after.used = p.after.width) ∧
        (ps.dropLast.map fun p => p.after.current).reverse <+: g.done := by
  obtain ⟨turns, ps, hrun⟩ :=
    (breaks_pushBreaking hfirst hrest word).breaksInto (Text.legible_segments word)
  rw [Text.ofSegments_segments] at hrun
  refine ⟨⟨turns, ps, hrun⟩, fun turns ps g h => ?_⟩
  exact ⟨(h.unique hrun).2.2, (h.turns_le hfirst hrest).1, h.flatten_pieces, h.fits, h.full,
    h.filled_prefix⟩

/-- A lead that leaves no room, lines of two widths, and escape sequences beside the cuts. -/
theorem pushBreaking_fills_pastLead :
    0 < (start 4 3 2).first ∧ 0 < (start 4 3 2).rest ∧
      (start 4 3 2).pushBreaking "ab\x1b[1mc\x1b[mdef\x1b[4m".toList =
        { done := ["de".toList, "ab\x1b[1mc\x1b[m".toList], current := "f\x1b[4m".toList,
          used := 1, words := 1, first := 3, rest := 2 } ∧
      ∃ turns ps, BreaksInto (start 4 3 2) "ab\x1b[1mc\x1b[mdef\x1b[4m".toList turns ps
          ((start 4 3 2).pushBreaking "ab\x1b[1mc\x1b[mdef\x1b[4m".toList) ∧
        turns ≤ 2 * ps.length ∧
        (ps.map Placement.piece).flatten = "ab\x1b[1mc\x1b[mdef\x1b[4m".toList ∧
        ∀ p ∈ ps.dropLast, p.after.used = p.after.width := by
  refine ⟨by decide, by decide, by decide, ?_⟩
  obtain ⟨⟨turns, ps, hrun⟩, hall⟩ := pushBreaking_fills (f := start 4 3 2) (by decide) (by decide)
    "ab\x1b[1mc\x1b[mdef\x1b[4m".toList
  obtain ⟨-, hturns, hpieces, -, hfull, -⟩ := hall turns ps _ hrun
  exact ⟨turns, ps, hrun, hturns, hpieces, hfull⟩

end Filler

end TextPager
