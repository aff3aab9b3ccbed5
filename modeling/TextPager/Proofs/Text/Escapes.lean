import TextPager.Proofs.Text.Words
import TextPager.Text.Fill

/-!
# Deleting escape sequences

`Text.plain` deletes the escape sequences of a text. It does so piece by piece wherever the scan
is back on the ground: `Terminated` texts leave it there, and `Neat` texts also keep white space
out of their sequences. A neat text can be cut at white space before or after its sequences are
deleted, with the same outcome.

**Results.**
* `segments_append`, `plain_append`, `width_append`: a terminated text and what follows it are
  read apart.
* `legible_segments`, `segments_truncate`: the segments of a text, and those that are kept of it, are
  read back; only the last may be an incomplete sequence.
* `plain_of_not_mem`, `not_mem_plain`: a text without escape characters is plain, and deleting
  leaves such a text.
* `pieces_plain`, `words_plain`: a neat text is cut at white space as its plain form is.
* `leadColumns_plain`: the plain form has the same lead if every word shows a character.
-/
namespace TextPager

/-- The state after a text. -/
def Scan.run (s : Scan) (t : Text) : Scan := t.foldl Scan.next s

theorem Scan.run_append (s : Scan) (a b : Text) : s.run (a ++ b) = (s.run a).run b :=
  List.foldl_append

theorem Scan.next_ground {c : Char} (h : c ≠ esc) : Scan.ground.next c = .ground := by
  simp [Scan.next, h]

/-- Every escape sequence of the text is complete. -/
def Text.Terminated (t : Text) : Prop := Scan.ground.run t = .ground

/-- The segment is read back as it was written, whatever follows it. -/
structure Segment.Whole (g : Segment) : Prop where
  terminated : Text.Terminated g.toText
  segments : Text.segments g.toText = [g]

namespace Text

/-! ## Texts side by side -/

theorem segmentsFrom_append {s : Scan} {a : Text} (h : s.run a = .ground) (b : Text) :
    segmentsFrom s (a ++ b) = ((segmentsFrom s a).1, (segmentsFrom s a).2 ++ b.segments) := by
  induction a generalizing s with
  | nil =>
    obtain rfl : s = .ground := h
    have hnil := (ofSegments_segmentsFrom .ground b).2 rfl
    simp only [List.nil_append, segmentsFrom, segments]
    rw [← hnil]
  | cons c a ih =>
    have ha : (s.next c).run a = .ground := h
    simp only [List.cons_append, segmentsFrom, ih ha]
    split
    · split <;> rfl
    · rfl

theorem segments_append {a : Text} (h : a.Terminated) (b : Text) :
    (a ++ b).segments = a.segments ++ b.segments := by
  rw [segments, segmentsFrom_append h]
  rfl

theorem plain_append {a : Text} (h : a.Terminated) (b : Text) :
    (a ++ b).plain = a.plain ++ b.plain := by
  rw [plain, segments_append h, List.filter_append, ofSegments_append]
  rfl

theorem width_append {a : Text} (h : a.Terminated) (b : Text) :
    (a ++ b).width = a.width + b.width := by
  rw [width, segments_append h, List.countP_append]
  rfl

theorem Terminated.append {a b : Text} (ha : a.Terminated) (hb : b.Terminated) :
    (a ++ b).Terminated := by
  rw [Terminated, Scan.run_append, ha]
  exact hb

/-! ## Texts without escape characters -/

theorem segments_of_not_mem {t : Text} (h : esc ∉ t) : t.segments = t.map .char := by
  induction t with
  | nil => rfl
  | cons c t ih =>
    have hc : c ≠ esc := fun hc => h (hc ▸ List.mem_cons_self)
    have ht := ih fun ht => h (List.mem_cons_of_mem _ ht)
    rw [segments] at ht
    simp [segments, segmentsFrom, Scan.next_ground hc, ht]

theorem terminated_of_not_mem {t : Text} (h : esc ∉ t) : t.Terminated := by
  induction t with
  | nil => rfl
  | cons c t ih =>
    have hc : c ≠ esc := fun hc => h (hc ▸ List.mem_cons_self)
    have ht : Scan.ground.run t = .ground := ih fun ht => h (List.mem_cons_of_mem _ ht)
    rw [Terminated, Scan.run, List.foldl_cons, Scan.next_ground hc]
    exact ht

theorem plain_of_not_mem {t : Text} (h : esc ∉ t) : t.plain = t := by
  have hf : (t.map Segment.char).filter Segment.isChar = t.map .char :=
    List.filter_eq_self.2 fun g hg => by
      obtain ⟨c, -, rfl⟩ := List.mem_map.1 hg
      rfl
  rw [plain, segments_of_not_mem h, hf, ofSegments, List.flatMap_map]
  exact List.flatMap_singleton' t

theorem width_of_not_mem {t : Text} (h : esc ∉ t) : t.width = t.length := by
  rw [width, segments_of_not_mem h, List.countP_map]
  exact List.countP_eq_length.2 fun c _ => rfl

theorem mem_plain {t : Text} {c : Char} (h : c ∈ t.plain) : c ∈ t ∧ c ≠ esc := by
  obtain ⟨g, hg, hc⟩ := List.mem_flatMap.1 h
  obtain ⟨hg, hchar⟩ := List.mem_filter.1 hg
  cases g with
  | escape e => cases hchar
  | char d =>
    obtain rfl := List.mem_singleton.1 hc
    refine ⟨?_, segments_char hg⟩
    rw [← ofSegments_segments t]
    exact List.mem_flatMap.2 ⟨_, hg, hc⟩

theorem not_mem_plain (t : Text) : esc ∉ t.plain := fun h => (mem_plain h).2 rfl

/-- The columns of a text are the characters that are left of it. -/
theorem length_plain (t : Text) : t.plain.length = t.width := by
  rw [width_eq_length_filter, plain]
  generalize hgs : t.segments.filter Segment.isChar = gs
  have hall : ∀ g ∈ gs, g.isChar = true := fun g hg => (List.mem_filter.1 (hgs ▸ hg)).2
  clear hgs
  induction gs with
  | nil => rfl
  | cons g gs ih =>
    have ih := ih fun g hg => hall g (List.mem_cons_of_mem _ hg)
    cases g with
    | char c => simp [ofSegments_cons, Segment.toText, ih]
    | escape e => cases hall (.escape e) List.mem_cons_self

theorem plain_eq_nil_iff {t : Text} : t.plain = [] ↔ t.width = 0 := by
  rw [← length_plain, List.length_eq_zero_iff]

/-! ## Reading segments back -/

/-- Segments that are read back from the text they spell: each is, alone, and each is complete that
another one follows. -/
structure Legible (gs : List Segment) : Prop where
  alone : ∀ g ∈ gs, segments g.toText = [g]
  complete : gs.Pairwise fun g _ => Terminated g.toText

theorem Legible.sublist {gs hs : List Segment} (h : Legible gs) (hsub : hs.Sublist gs) :
    Legible hs :=
  ⟨fun g hg => h.alone g (hsub.subset hg), h.complete.sublist hsub⟩

theorem legible_of_whole {gs : List Segment} (h : ∀ g ∈ gs, g.Whole) : Legible gs :=
  ⟨fun g hg => (h g hg).segments, List.pairwise_iff_forall_sublist.2 fun hpair =>
    (h _ (hpair.subset List.mem_cons_self)).terminated⟩

theorem terminated_ofSegments {gs : List Segment} (h : ∀ g ∈ gs, Terminated g.toText) :
    (ofSegments gs).Terminated := by
  induction gs with
  | nil => rfl
  | cons g gs ih =>
    obtain ⟨hg, hgs⟩ := List.forall_mem_cons.1 h
    rw [ofSegments_cons]
    exact hg.append (ih hgs)

theorem Legible.segments_ofSegments {gs : List Segment} (h : Legible gs) :
    (ofSegments gs).segments = gs := by
  induction gs with
  | nil => rfl
  | cons g gs ih =>
    have hg : segments g.toText = [g] := h.alone g List.mem_cons_self
    rw [ofSegments_cons]
    cases gs with
    | nil => rw [ofSegments, List.flatMap_nil, List.append_nil, hg]
    | cons next gs =>
      have hend : Terminated g.toText := List.rel_of_pairwise_cons h.complete List.mem_cons_self
      rw [segments_append hend, hg, ih (h.sublist (List.sublist_cons_self g _)),
        List.singleton_append]

/-- What a scan reads: the end of the sequence it stands in, which is complete if a segment follows,
and segments that are read back. -/
theorem segmentsFrom_legible (s : Scan) (t : Text) :
    segmentsFrom s (segmentsFrom s t).1 = ((segmentsFrom s t).1, []) ∧
      ((segmentsFrom s t).2 ≠ [] → s.run (segmentsFrom s t).1 = .ground) ∧
      Legible (segmentsFrom s t).2 := by
  induction t generalizing s with
  | nil => exact ⟨rfl, fun h => absurd rfl h, ⟨fun g hg => (by cases hg), .nil⟩⟩
  | cons c t ih =>
    obtain ⟨hread, hend, hlegible⟩ := ih (s.next c)
    simp only [segmentsFrom]
    split
    · rename_i hs
      subst hs
      have hcons : ∀ g : Segment, segments g.toText = [g] →
          ((segmentsFrom (Scan.ground.next c) t).2 ≠ [] → Terminated g.toText) →
          Legible (g :: (segmentsFrom (Scan.ground.next c) t).2) := fun g halone hterm =>
        ⟨List.forall_mem_cons.2 ⟨halone, hlegible.alone⟩,
          List.pairwise_cons.2 ⟨fun _ hg => hterm (List.ne_nil_of_mem hg), hlegible.complete⟩⟩
      split
      · rename_i hn
        refine ⟨rfl, fun _ => rfl, hcons (.char c) ?_ fun _ => hn⟩
        simp [Segment.toText, segments, segmentsFrom, hn]
      · rename_i hn
        refine ⟨rfl, fun _ => rfl, hcons (.escape _) ?_ hend⟩
        simp [Segment.toText, segments, segmentsFrom, hn, hread]
    · rename_i hs
      refine ⟨?_, hend, hlegible⟩
      simp [segmentsFrom, hs, hread]

theorem legible_segments (t : Text) : Legible t.segments := (segmentsFrom_legible .ground t).2.2

/-- A terminated text has whole segments, the last one too. -/
theorem segments_whole {t : Text} (h : t.Terminated) : ∀ g ∈ t.segments, g.Whole := by
  intro g hg
  have hlegible := legible_segments t
  refine ⟨?_, hlegible.alone g hg⟩
  obtain ⟨before, after, hsplit⟩ := List.append_of_mem hg
  obtain ⟨-, hcomplete, hbefore⟩ := List.pairwise_append.1 (hsplit ▸ hlegible.complete)
  cases after with
  | cons next after => exact List.rel_of_pairwise_cons hcomplete List.mem_cons_self
  | nil =>
    have hterm : (ofSegments before).Terminated :=
      terminated_ofSegments fun b hb => hbefore b hb g List.mem_cons_self
    have htext : ofSegments before ++ g.toText = t := by
      rw [← ofSegments_segments t, hsplit, ofSegments_append]
      simp [ofSegments]
    rw [← htext, Terminated, Scan.run_append, hterm] at h
    exact h

/-- Whole segments are read back from the text they spell. -/
theorem segments_ofSegments {gs : List Segment} (h : ∀ g ∈ gs, g.Whole) :
    (ofSegments gs).Terminated ∧ (ofSegments gs).segments = gs :=
  ⟨terminated_ofSegments fun g hg => (h g hg).terminated,
    (legible_of_whole h).segments_ofSegments⟩

/-! ## Cutting to columns -/

theorem keepVisible_sublist (n : Nat) (gs : List Segment) : (keepVisible n gs).Sublist gs := by
  fun_induction keepVisible n gs with
  | case1 => exact .slnil
  | case2 n e gs ih => exact ih.cons_cons _
  | case3 c gs ih => exact ih.cons _
  | case4 n c gs ih => exact ih.cons_cons _

theorem ofSegments_keepVisible (n : Nat) (gs : List Segment) :
    ofSegments ((keepVisible n gs).filter Segment.isChar) =
      (ofSegments (gs.filter Segment.isChar)).take n := by
  fun_induction keepVisible n gs with
  | case1 => simp [ofSegments]
  | case2 n e gs ih => simpa [Segment.isChar] using ih
  | case3 c gs ih => simpa [Segment.isChar] using ih
  | case4 n c gs ih =>
    rw [List.filter_cons_of_pos rfl, List.filter_cons_of_pos rfl, ofSegments_cons, ofSegments_cons,
      ih]
    rfl

theorem mem_truncate {t : Text} {n : Nat} {c : Char} (h : c ∈ t.truncate n) : c ∈ t := by
  obtain ⟨g, hg, hc⟩ := List.mem_flatMap.1 h
  rw [← ofSegments_segments t]
  exact List.mem_flatMap.2 ⟨g, (keepVisible_sublist n t.segments).subset hg, hc⟩

theorem terminated_truncate {t : Text} (h : t.Terminated) (n : Nat) : (t.truncate n).Terminated :=
  terminated_ofSegments fun g hg =>
    (segments_whole h g ((keepVisible_sublist n t.segments).subset hg)).terminated

/-- A text cut to columns has those of its segments that are kept. -/
theorem segments_truncate (t : Text) (n : Nat) :
    (t.truncate n).segments = keepVisible n t.segments :=
  ((legible_segments t).sublist (keepVisible_sublist n t.segments)).segments_ofSegments

/-- What is left of a text cut to columns are the first characters that are left of it. -/
theorem plain_truncate (t : Text) (n : Nat) : (t.truncate n).plain = t.plain.take n := by
  rw [plain, segments_truncate, ofSegments_keepVisible]
  rfl

theorem truncate_of_not_mem {t : Text} (h : esc ∉ t) (n : Nat) : t.truncate n = t.take n := by
  have hp := plain_truncate t n
  rwa [plain_of_not_mem h, plain_of_not_mem fun he => h (mem_truncate he)] at hp

/-! ## White space stands outside the sequences -/

/-- Every escape sequence, also the one the scan stands in, is complete and holds no white
space. -/
def NeatFrom : Scan → Text → Prop
  | s, [] => s = .ground
  | s, c :: t => (isSpace c = true → s = .ground) ∧ NeatFrom (s.next c) t

instance : (s : Scan) → (t : Text) → Decidable (NeatFrom s t)
  | s, [] => inferInstanceAs (Decidable (s = .ground))
  | s, c :: t =>
    have := instDecidableNeatFrom (s.next c) t
    inferInstanceAs (Decidable ((isSpace c = true → s = .ground) ∧ NeatFrom (s.next c) t))

/-- Every escape sequence of the text is complete and holds no white space. -/
def Neat (t : Text) : Prop := NeatFrom .ground t

instance (t : Text) : Decidable t.Neat := inferInstanceAs (Decidable (NeatFrom .ground t))

theorem NeatFrom.run {s : Scan} {t : Text} (h : NeatFrom s t) : s.run t = .ground := by
  induction t generalizing s with
  | nil => exact h
  | cons c t ih => exact ih h.2

theorem Neat.terminated {t : Text} (h : t.Neat) : t.Terminated := NeatFrom.run h

theorem neatFrom_append {s : Scan} {a b : Text} (ha : NeatFrom s a) (hb : b.Neat) :
    NeatFrom s (a ++ b) := by
  induction a generalizing s with
  | nil =>
    obtain rfl : s = .ground := ha
    exact hb
  | cons c a ih => exact ⟨ha.1, ih ha.2⟩

theorem Neat.append {a b : Text} (ha : a.Neat) (hb : b.Neat) : (a ++ b).Neat :=
  neatFrom_append ha hb

theorem neat_nil : Neat [] := rfl

theorem neat_of_not_mem {t : Text} (h : esc ∉ t) : t.Neat := by
  induction t with
  | nil => rfl
  | cons c t ih =>
    have hc : c ≠ esc := fun hc => h (hc ▸ List.mem_cons_self)
    refine ⟨fun _ => rfl, ?_⟩
    rw [Scan.next_ground hc]
    exact ih fun ht => h (List.mem_cons_of_mem _ ht)

theorem isSpace_esc : isSpace esc = false := by decide

theorem ne_esc_of_isSpace {c : Char} (h : isSpace c = true) : c ≠ esc := by
  intro he
  subst he
  rw [isSpace_esc] at h
  cases h

theorem neat_cons_space {c : Char} (hc : isSpace c = true) {t : Text} :
    Neat (c :: t) ↔ t.Neat := by
  have hn := Scan.next_ground (ne_esc_of_isSpace hc)
  simp [Neat, NeatFrom, hn]

theorem neatFrom_append_cons {s : Scan} {a b : Text} {c : Char} (hc : isSpace c = true)
    (h : NeatFrom s (a ++ c :: b)) : NeatFrom s a ∧ b.Neat := by
  induction a generalizing s with
  | nil =>
    obtain rfl : s = .ground := h.1 hc
    exact ⟨rfl, (neat_cons_space hc).1 h⟩
  | cons d a ih => exact ⟨⟨h.1, (ih h.2).1⟩, (ih h.2).2⟩

/-- White space tells a neat text apart into neat texts. -/
theorem Neat.split {a b : Text} {c : Char} (hc : isSpace c = true) (h : Neat (a ++ c :: b)) :
    a.Neat ∧ b.Neat := neatFrom_append_cons hc h

theorem plain_cons_space {c : Char} (hc : isSpace c = true) (t : Text) :
    plain (c :: t) = c :: t.plain := by
  have hn : esc ∉ [c] := by
    rw [List.mem_singleton]
    exact (ne_esc_of_isSpace hc).symm
  have h := plain_append (terminated_of_not_mem hn) t
  rw [plain_of_not_mem hn] at h
  exact h

/-! ## Cutting at white space -/

theorem mem_pieces_neat {cut : Char → Bool} (hcut : ∀ c, cut c = true → isSpace c = true)
    {t : Text} (h : t.Neat) : ∀ p ∈ t.pieces cut, p.Neat := by
  induction t using pieces_induction cut with
  | piece p hp =>
    rw [pieces_of_forall hp]
    intro q hq
    rw [List.mem_singleton.1 hq]
    exact h
  | step p c t hp hc ih =>
    obtain ⟨h1, h2⟩ := h.split (hcut c hc)
    rw [pieces_append_cons cut p t hc, pieces_of_forall hp]
    intro q hq
    rcases List.mem_cons.1 hq with rfl | hq
    · exact h1
    · exact ih h2 q hq

theorem mem_words_neat {t : Text} (h : t.Neat) {w : Text} (hw : w ∈ t.words) : w.Neat :=
  mem_pieces_neat (fun _ hc => hc) h w (List.mem_filter.1 hw).1

/-- A neat text is cut at white space before or after its sequences are deleted. -/
theorem pieces_plain {cut : Char → Bool} (hcut : ∀ c, cut c = true → isSpace c = true)
    {t : Text} (h : t.Neat) : t.plain.pieces cut = (t.pieces cut).map plain := by
  induction t using pieces_induction cut with
  | piece p hp =>
    rw [pieces_of_forall hp, pieces_of_forall fun c hc => hp c (mem_plain hc).1]
    rfl
  | step p c t hp hc ih =>
    obtain ⟨h1, h2⟩ := h.split (hcut c hc)
    rw [plain_append h1.terminated, plain_cons_space (hcut c hc), pieces_append_cons cut _ _ hc,
      pieces_append_cons cut p t hc, pieces_of_forall hp,
      pieces_of_forall fun c hc => hp c (mem_plain hc).1, ih h2]
    rfl

/-- The words of the plain form are those words, made plain, that show a character. -/
theorem words_plain {t : Text} (h : t.Neat) :
    t.plain.words = (t.words.filter fun w => 0 < w.width).map plain := by
  have hkeep : ∀ ps : List Text, (ps.map plain).filter (fun w => !w.isEmpty) =
      ((ps.filter fun w => !w.isEmpty).filter fun w => 0 < w.width).map plain := by
    intro ps
    induction ps with
    | nil => rfl
    | cons p ps ih =>
      have hw := plain_eq_nil_iff (t := p)
      have hnil : plain [] = [] := rfl
      by_cases h0 : p.width = 0
      · by_cases hp : p = [] <;> simp [hw.2 h0, h0, hp, ih, hnil]
      · have hp : p ≠ [] := fun hp => h0 (by rw [hp]; rfl)
        have hpl : p.plain ≠ [] := fun hpl => h0 (hw.1 hpl)
        simp [hp, hpl, Nat.pos_of_ne_zero h0, ih]
  rw [words, pieces_plain (fun _ hc => hc) h, hkeep, words]

/-- Every word shows at least one character. -/
def WordsShow (t : Text) : Prop := ∀ w ∈ t.words, 0 < w.width

instance (t : Text) : Decidable t.WordsShow :=
  inferInstanceAs (Decidable (∀ w ∈ t.words, 0 < w.width))

theorem words_plain_of_wordsShow {t : Text} (h : t.Neat) (hw : t.WordsShow) :
    t.plain.words = t.words.map plain := by
  rw [words_plain h, List.filter_eq_self.2 fun w hm => decide_eq_true (hw w hm)]

theorem wordsShow_of_not_mem {t : Text} (h : esc ∉ t) : t.WordsShow := by
  intro w hw
  have hn : esc ∉ w := fun he => h (mem_of_mem_words hw he)
  rw [width_of_not_mem hn]
  exact List.length_pos_iff.2 (mem_words hw).1

theorem wordsShow_joinWords_iff (ts : List Text) :
    (joinWords ts).WordsShow ↔ ∀ t ∈ ts, t.WordsShow := by
  simp only [WordsShow, words_joinWords, List.mem_flatMap]
  constructor
  · intro h t ht w hw
    exact h w ⟨t, ht, hw⟩
  · intro h w hw
    obtain ⟨t, ht, hw⟩ := hw
    exact h t ht w hw

/-- A text that does not begin with white space has a first piece that begins as it does. -/
theorem takeWhile_eq_nil_of_pieces {t p : Text} {ps : List Text}
    (h : t.pieces isSpace = p :: ps) (hp : p ≠ []) : t.takeWhile isSpace = [] := by
  cases t with
  | nil => rfl
  | cons c t =>
    by_cases hc : isSpace c = true
    · rw [pieces_cons, if_pos hc] at h
      exact absurd (List.cons.inj h).1.symm hp
    · simp [hc]

theorem takeWhile_plain {t : Text} (h : t.Neat) (hw : t.WordsShow) :
    t.plain.takeWhile isSpace = t.takeWhile isSpace := by
  induction t with
  | nil => rfl
  | cons c t ih =>
    by_cases hc : isSpace c = true
    · have hwt : WordsShow t := by rwa [WordsShow, words_cons_space t hc] at hw
      rw [plain_cons_space hc, List.takeWhile_cons_of_pos hc, List.takeWhile_cons_of_pos hc,
        ih ((neat_cons_space hc).1 h) hwt]
    · obtain ⟨p, ps, hp⟩ := List.exists_cons_of_ne_nil (pieces_ne_nil isSpace (c :: t))
      have hne : p ≠ [] := by
        rw [pieces_cons, if_neg hc] at hp
        split at hp <;> exact (List.cons.inj hp).1 ▸ List.cons_ne_nil _ _
      have hword : p ∈ words (c :: t) :=
        List.mem_filter.2 ⟨hp ▸ List.mem_cons_self, by simp [hne]⟩
      have hplain : p.plain ≠ [] := fun hn => Nat.ne_of_gt (hw p hword) (plain_eq_nil_iff.1 hn)
      have hpieces := pieces_plain (fun _ hc => hc) h
      rw [hp, List.map_cons] at hpieces
      rw [takeWhile_eq_nil_of_pieces hpieces hplain, List.takeWhile_cons_of_neg hc]

/-- The plain form has the same lead. -/
theorem leadColumns_plain {t : Text} (h : t.Neat) (hw : t.WordsShow) :
    t.plain.leadColumns = t.leadColumns := by
  rw [leadColumns, takeWhile_plain h hw, leadColumns]

end Text

end TextPager
