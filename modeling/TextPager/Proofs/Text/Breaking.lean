import TextPager.Proofs.Text.FilledLines

/-!
# Breaking a word to its end

A word is broken turn by turn, and the turns are counted: two are allowed for each segment, as a turn
that only ends a full line is followed by one that places something. `Filler.Breaks` says what the
turns come to without counting them. Either nothing is left, or a turn is made and the others follow.
So what a broken word does to a filler is an induction over its turns, and no proof has to know how
many there are.

What was set on a filler so far is `Filler.content`. Ending a line keeps it, but for the lead of a line
that was left without words, and setting a piece adds the piece and white space. So filled lines spell
the words that were filled, with more or less white space between them.

**Results.**
* `Filler.breaks_pushBreaking`: a word is broken to its end.
* `Filler.Breaks.unique`: breaking has one outcome.
* `Text.unspaced_fill`: but for white space, filled lines spell the words.
* `Text.isBlank_of_mem_fill`: no line filled with words is blank.
-/
namespace TextPager

namespace Filler

/-- A filler places segments, turn by turn until none is left, and becomes another. -/
inductive Breaks : Filler → List Segment → Filler → Prop where
  | done (f : Filler) : Breaks f [] f
  | turn {f g : Filler} {left : List Segment} (hleft : left ≠ [])
      (h : Breaks (f.breakTurn left).1 (f.breakTurn left).2 g) : Breaks f left g

/-- Breaking has one outcome. -/
theorem Breaks.unique {f g g' : Filler} {left : List Segment} (h : Breaks f left g)
    (h' : Breaks f left g') : g = g' := by
  induction h with
  | done f =>
    cases h' with
    | done => rfl
    | turn hleft => exact absurd rfl hleft
  | turn hleft _ ih =>
    cases h' with
    | done => exact absurd rfl hleft
    | turn _ h' => exact ih h'

/-! ## Breaking ends -/

@[simp]
theorem first_flush (f : Filler) : f.flush.first = f.first := rfl

@[simp]
theorem rest_flush (f : Filler) : f.flush.rest = f.rest := rfl

@[simp]
theorem first_dropLead (f : Filler) (columns : Nat) : (f.dropLead columns).first = f.first := by
  unfold dropLead
  split <;> rfl

@[simp]
theorem rest_dropLead (f : Filler) (columns : Nat) : (f.dropLead columns).rest = f.rest := by
  unfold dropLead
  split <;> rfl

@[simp]
theorem first_push (f : Filler) (word : Text) (columns : Nat) :
    (f.push word columns).first = f.first := by
  show (dropLead _ columns).first = f.first
  rw [first_dropLead]
  split <;> rfl

@[simp]
theorem rest_push (f : Filler) (word : Text) (columns : Nat) :
    (f.push word columns).rest = f.rest := by
  show (dropLead _ columns).rest = f.rest
  rw [rest_dropLead]
  split <;> rfl

theorem first_breakTurn (f : Filler) (left : List Segment) :
    (f.breakTurn left).1.first = f.first := by
  unfold breakTurn
  split <;> simp

theorem rest_breakTurn (f : Filler) (left : List Segment) :
    (f.breakTurn left).1.rest = f.rest := by
  unfold breakTurn
  split <;> simp

theorem breakTurns_nil (n : Nat) (f : Filler) : f.breakTurns n [] = f := by
  cases n <;> rfl

theorem breakTurns_succ (n : Nat) (f : Filler) {left : List Segment} (hleft : left ≠ []) :
    f.breakTurns (n + 1) left = (f.breakTurn left).1.breakTurns n (f.breakTurn left).2 := by
  cases left with
  | nil => exact absurd rfl hleft
  | cons s left => rfl

/-- Two turns for each segment are enough. -/
theorem breaks_breakTurns {f : Filler} {left : List Segment} (hf : 0 < f.first) (hr : 0 < f.rest)
    {n : Nat} (hn : 2 * left.length ≤ n) : Breaks f left (f.breakTurns n left) := by
  induction n using Nat.strongRecOn generalizing f left with
  | ind n ih =>
    by_cases hleft : left = []
    · rw [hleft, breakTurns_nil]
      exact .done f
    · have hlen : 0 < left.length := List.length_pos_iff.2 hleft
      have hf' : 0 < (f.breakTurn left).1.first := by rwa [first_breakTurn]
      have hr' : 0 < (f.breakTurn left).1.rest := by rwa [rest_breakTurn]
      rcases f.breakTurn_progress left hleft hf hr with hshort | ⟨hsame, hshort⟩
      · obtain ⟨m, rfl⟩ : ∃ m, n = m + 1 := ⟨n - 1, by omega⟩
        rw [breakTurns_succ m f hleft]
        exact .turn hleft (ih m (by omega) hf' hr' (by omega))
      -- The first turn ended a full line, the second one places something.
      · obtain ⟨m, rfl⟩ : ∃ m, n = m + 2 := ⟨n - 2, by omega⟩
        rw [breakTurns_succ (m + 1) f hleft, hsame, breakTurns_succ m _ hleft]
        refine .turn hleft ?_
        rw [hsame]
        refine .turn hleft (ih m (by omega) ?_ ?_ (by omega))
        · rwa [first_breakTurn]
        · rwa [rest_breakTurn]

/-- A word is broken to its end, if every line has a column. -/
theorem breaks_pushBreaking {f : Filler} (hf : 0 < f.first) (hr : 0 < f.rest) (word : Text) :
    Breaks f word.segments (f.pushBreaking word) :=
  breaks_breakTurns hf hr (Nat.le_refl _)

/-! ## What was set -/

/-- What was set so far, line after line. -/
def content (f : Filler) : Text := f.done.reverse.flatten ++ f.current

/-- Every line has a column, and a line without words is blank. -/
structure Sound (f : Filler) : Prop where
  first : 0 < f.first
  rest : 0 < f.rest
  lead : f.words = 0 → f.current.isBlank = true

theorem sound_start (lead first rest : Nat) : (start lead first rest).Sound :=
  ⟨Nat.lt_of_lt_of_le Nat.one_pos (Nat.le_max_right first 1),
    Nat.lt_of_lt_of_le Nat.one_pos (Nat.le_max_right rest 1), fun _ => Text.isBlank_spaces lead⟩

theorem Sound.flush {f : Filler} (h : f.Sound) : f.flush.Sound :=
  ⟨h.first, h.rest, fun _ => rfl⟩

theorem Sound.push {f : Filler} (h : f.Sound) (word : Text) (columns : Nat) :
    (f.push word columns).Sound := by
  refine ⟨by rw [first_push]; exact h.first, by rw [rest_push]; exact h.rest, fun hwords => ?_⟩
  exact absurd hwords (Nat.succ_ne_zero _)

theorem Sound.kept (breakWords : Bool) : Kept breakWords (fun _ => True) Sound :=
  ⟨fun hf => hf.flush, fun hf _ _ => hf.push _ _⟩

theorem Sound.breakTurn {f : Filler} (h : f.Sound) (left : List Segment) :
    (f.breakTurn left).1.Sound :=
  ((Sound.kept false).breakTurn h fun _ _ => trivial).1

theorem Sound.place {f : Filler} (h : f.Sound) (breakWords : Bool) (word : Text) :
    (f.place breakWords word).Sound :=
  (Sound.kept breakWords).place h fun _ _ => trivial

/-- The end of a line leaves out blanks at most. -/
theorem unspaced_content_flush {f : Filler} (h : f.Sound) :
    f.flush.content.unspaced = f.content.unspaced := by
  unfold Filler.flush content
  by_cases hwords : f.words = 0
  · have hlead := Text.unspaced_eq_nil_iff.2 (h.lead hwords)
    simp [hwords, Text.unspaced_append, hlead]
  · simp [hwords]

theorem unspaced_content_dropLead {f : Filler} (h : f.Sound) (columns : Nat) :
    (f.dropLead columns).content.unspaced = f.content.unspaced := by
  unfold dropLead
  split
  · rename_i hdrop
    have hlead := Text.unspaced_eq_nil_iff.2 (h.lead hdrop.1)
    simp [content, Text.unspaced_append, hlead]
  · rfl

theorem unspaced_content_append (f : Filler) (word : Text) (columns : Nat) :
    (f.append word columns).content.unspaced = f.content.unspaced ++ word.unspaced := by
  simp [content, append, Text.unspaced_append, Text.unspaced_spaces]

/-- A piece that is set comes after what was set before. -/
theorem unspaced_content_push {f : Filler} (h : f.Sound) (word : Text) (columns : Nat) :
    (f.push word columns).content.unspaced = f.content.unspaced ++ word.unspaced := by
  unfold Filler.push
  rw [unspaced_content_append]
  split
  · rw [unspaced_content_dropLead h.flush, unspaced_content_flush h]
  · rw [unspaced_content_dropLead h]

/-- A turn moves what it places to what was set. -/
theorem unspaced_content_breakTurn {f : Filler} (h : f.Sound) (left : List Segment) :
    (f.breakTurn left).1.content.unspaced ++ (Text.ofSegments (f.breakTurn left).2).unspaced =
      f.content.unspaced ++ (Text.ofSegments left).unspaced := by
  unfold breakTurn
  split
  · rw [unspaced_content_flush h]
  · rw [unspaced_content_push h, List.append_assoc, ← Text.unspaced_append, ← Text.ofSegments_append,
      Text.splitVisible_append]

/-- A broken word comes, piece by piece, after what was set before. -/
theorem Breaks.unspaced_content {f g : Filler} {left : List Segment} (h : Breaks f left g)
    (hf : f.Sound) : g.content.unspaced = f.content.unspaced ++ (Text.ofSegments left).unspaced := by
  induction h with
  | done f => exact (List.append_nil _).symm
  | turn _ _ ih => rw [ih (hf.breakTurn _), unspaced_content_breakTurn hf]

theorem unspaced_content_place {f : Filler} (h : f.Sound) (breakWords : Bool) (word : Text) :
    (f.place breakWords word).content.unspaced = f.content.unspaced ++ word.unspaced := by
  unfold place
  split
  · rw [(breaks_pushBreaking h.first h.rest word).unspaced_content h, Text.ofSegments_segments]
  · exact unspaced_content_push h word _

theorem unspaced_content_foldl_place (breakWords : Bool) (ws : List Text) {f : Filler}
    (h : f.Sound) :
    (ws.foldl (place breakWords) f).Sound ∧
      (ws.foldl (place breakWords) f).content.unspaced =
        f.content.unspaced ++ Text.unspaced ws.flatten := by
  induction ws generalizing f with
  | nil => exact ⟨h, (List.append_nil _).symm⟩
  | cons w ws ih =>
    obtain ⟨hsound, hcontent⟩ := ih (h.place breakWords w)
    refine ⟨hsound, ?_⟩
    rw [List.foldl_cons, hcontent, unspaced_content_place h, List.append_assoc,
      ← Text.unspaced_append, List.flatten_cons]

/-! ## Lines with words are not blank -/

/-- No line that has words is blank. -/
structure Solid (f : Filler) : Prop where
  done : ∀ l ∈ f.done, l.isBlank = false
  current : f.words ≠ 0 → f.current.isBlank = false

theorem Solid.flush {f : Filler} (h : f.Solid) : f.flush.Solid := by
  refine ⟨?_, fun hwords => absurd rfl hwords⟩
  unfold Filler.flush
  by_cases hwords : f.words = 0
  · simpa [hwords] using h.done
  · simpa [hwords] using ⟨h.current hwords, h.done⟩

theorem Solid.dropLead {f : Filler} (h : f.Solid) (columns : Nat) : (f.dropLead columns).Solid := by
  unfold Filler.dropLead
  split
  · rename_i hdrop
    exact ⟨h.done, fun hwords => absurd hdrop.1 hwords⟩
  · exact h

theorem Solid.append {f : Filler} (h : f.Solid) {word : Text} (hword : word.isBlank = false)
    (columns : Nat) : (f.append word columns).Solid :=
  ⟨h.done, fun _ => by simp [Filler.append, Text.isBlank_append, hword]⟩

theorem Solid.push {f : Filler} (h : f.Solid) {word : Text} (hword : word.isBlank = false)
    (columns : Nat) : (f.push word columns).Solid :=
  push_of_steps (fun hf => hf.flush) (fun hf => hf.dropLead columns)
    (fun hf => hf.append hword columns) h

/-- A word that is broken into pieces of segments which are not blank leaves no blank line. -/
theorem Breaks.solid {f g : Filler} {left : List Segment} (h : Breaks f left g) (hf : f.Solid)
    (hleft : ∀ s ∈ left, Text.isBlank s.toText = false) : g.Solid := by
  induction h with
  | done f => exact hf
  | @turn f g left hne _ ih =>
    have hsplit := Text.splitVisible_append f.room left
    have hparts := hleft
    rw [← hsplit, List.forall_mem_append] at hparts
    unfold breakTurn at ih
    by_cases hroom : f.room = 0
    · rw [if_pos hroom] at ih
      exact ih hf.flush hleft
    · rw [if_neg hroom] at ih
      obtain ⟨s, hs⟩ := List.exists_mem_of_ne_nil _
        (Text.splitVisible_fst_ne_nil hne (Nat.pos_of_ne_zero hroom))
      obtain ⟨c, hc, hsolid⟩ := List.all_eq_false.1 (hparts.1 s hs)
      have hpiece : (Text.ofSegments (Text.splitVisible f.room left).1).isBlank = false :=
        List.all_eq_false.2 ⟨c, List.mem_flatMap.2 ⟨s, hs, hc⟩, hsolid⟩
      exact ih (hf.push hpiece _) hparts.2

end Filler

namespace Text

/-- But for white space, filled lines spell the words. -/
theorem unspaced_fill (ws : List Text) (lead first rest : Nat) (breakWords : Bool) :
    unspaced (fill ws lead first rest breakWords).flatten = unspaced ws.flatten := by
  obtain ⟨hsound, hcontent⟩ :=
    Filler.unspaced_content_foldl_place breakWords ws (Filler.sound_start lead first rest)
  have hstart : (Filler.start lead first rest).content.unspaced = [] := unspaced_spaces lead
  have hlines : ∀ f : Filler, f.lines.flatten = f.flush.content := fun f =>
    (List.append_nil _).symm
  rw [fill, hlines, Filler.unspaced_content_flush hsound, hcontent, hstart, List.nil_append]

/-- No segment of a text without white space is blank. -/
theorem isBlank_of_mem_segments {w : Text} (hw : ∀ c ∈ w, isSpace c = false) {s : Segment}
    (hs : s ∈ w.segments) : isBlank s.toText = false := by
  have hmem : ∀ c ∈ s.toText, isSpace c = false := fun c hc =>
    hw c (ofSegments_segments w ▸ List.mem_flatMap.2 ⟨s, hs, hc⟩)
  cases s with
  | char c => simpa [Segment.toText, isBlank] using hmem
  | escape e =>
    have hesc : esc ∈ e := List.mem_of_mem_head? (segments_escape hs)
    exact List.all_eq_false.2 ⟨esc, hesc, by simp [isSpace_esc]⟩

/-- A word that is placed leaves no blank line. -/
theorem solid_place {f : Filler} (hsound : f.Sound) (hsolid : f.Solid) {w : Text} (hne : w ≠ [])
    (hspace : ∀ c ∈ w, isSpace c = false) (breakWords : Bool) : (f.place breakWords w).Solid := by
  unfold Filler.place
  split
  · exact (Filler.breaks_pushBreaking hsound.first hsound.rest w).solid hsolid
      fun s hs => isBlank_of_mem_segments hspace hs
  · obtain ⟨c, hc⟩ := List.exists_mem_of_ne_nil w hne
    exact hsolid.push (List.all_eq_false.2 ⟨c, hc, by simp [hspace c hc]⟩) _

/-- No line filled with words is blank. -/
theorem isBlank_of_mem_fill {ws : List Text} (h : ∀ w ∈ ws, w ≠ [] ∧ ∀ c ∈ w, isSpace c = false)
    {lead first rest : Nat} {breakWords : Bool} {l : Text}
    (hl : l ∈ fill ws lead first rest breakWords) : l.isBlank = false := by
  have hstart : (Filler.start lead first rest).Solid :=
    ⟨fun l hl => (by cases hl), fun hwords => absurd rfl hwords⟩
  have hplaced := List.foldlRecOn (motive := fun f => f.Sound ∧ f.Solid) ws
    (Filler.place breakWords) ⟨Filler.sound_start lead first rest, hstart⟩ fun f hf w hw =>
      ⟨hf.1.place breakWords w, solid_place hf.1 hf.2 (h w hw).1 (h w hw).2 breakWords⟩
  exact hplaced.2.flush.done l (List.mem_reverse.1 hl)

end Text

end TextPager
