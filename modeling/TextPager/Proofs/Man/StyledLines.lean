import TextPager.Proofs.Man.Characters
import TextPager.Proofs.Man.StyledPhrases
import TextPager.Proofs.Text.AsSeen

/-!
# Lines with and without styles

The same lines are set in two styles, at every width. `Settles` says when styling leaves them in
place: exactly if a condition holds, and one column is enough to tell, because there the plain
lines are never more than the styled ones. It also says when every line that looks blank is blank,
so that a margin can be put before them. Lines that settle stay so when they are moved right, set
in fewer columns, or followed by others that settle, so a condition on a section or a page is one
on its parts.

**Results.**
* `Settles.append`, `Settles.flatMap`, `Settles.indent`: lines one after the other, and moved right.
* `prose_settles`: filled text stays in place exactly if every word shows.
* `verbatim_settles`, `paragraph_settles`: lines kept as they stand, and paragraphs with their tags.
-/
namespace TextPager.Man

open Text (Shows Flat BlankAsSeen ReturnAsSeen Unitwise)

/-- Lines set in a style, at a width. -/
abbrev Setting := Styles → Nat → List Text

/-- Styling leaves the lines in place exactly if `inPlace`, and then every line that looks blank is
blank exactly if `inset`. -/
structure Settles (lines : Setting) (inPlace inset : Prop) : Prop where
  flat : ∀ n, (∀ l ∈ lines .ansi n, Flat l) ∧ ∀ l ∈ lines .plain n, Flat l
  /-- At one column the plain lines are not more than the styled ones. -/
  le : (lines .plain 1).length ≤ (lines .ansi 1).length
  plain_eq : inPlace → ∀ n, 0 < n → (lines .ansi n).map Text.plain = lines .plain n
  of_plain_eq : (lines .ansi 1).map Text.plain = lines .plain 1 → inPlace
  blank : inPlace → inset → ∀ n, 0 < n → ∀ l ∈ lines .ansi n, BlankAsSeen l
  of_blank : inPlace → (∀ l ∈ lines .ansi 1, BlankAsSeen l) → inset

theorem map_plain_indentLines (k : Nat) (ls : List Text) :
    (indentLines k ls).map Text.plain = indentLines k (ls.map Text.plain) := by
  rw [indentLines, indentLines, List.map_map, List.map_map]
  exact List.map_congr_left fun l _ => Text.plain_spaces_append k l

namespace Settles

variable {f g : Setting} {p p' q q' : Prop}

/-- The conditions may be given in another form. -/
theorem congr (h : Settles f p q) (hp : p ↔ p') (hq : p → (q ↔ q')) : Settles f p' q' where
  flat := h.flat
  le := h.le
  plain_eq hp' := h.plain_eq (hp.2 hp')
  of_plain_eq he := hp.1 (h.of_plain_eq he)
  blank hp' hq' := h.blank (hp.2 hp') ((hq (hp.2 hp')).2 hq')
  of_blank hp' hb := (hq (hp.2 hp')).1 (h.of_blank (hp.2 hp') hb)

theorem nil : Settles (fun _ _ => []) True True where
  flat _ := ⟨by simp, by simp⟩
  le := Nat.le_refl _
  plain_eq _ _ _ := rfl
  of_plain_eq _ := trivial
  blank _ _ _ _ := by simp
  of_blank _ _ := trivial

theorem append (h : Settles f p q) (k : Settles g p' q') :
    Settles (fun s n => f s n ++ g s n) (p ∧ p') (q ∧ q') where
  flat n := ⟨List.forall_mem_append.2 ⟨(h.flat n).1, (k.flat n).1⟩,
    List.forall_mem_append.2 ⟨(h.flat n).2, (k.flat n).2⟩⟩
  le := by
    have := h.le
    have := k.le
    simp only [List.length_append]
    omega
  plain_eq := fun ⟨hp, kp⟩ n hn => by
    rw [List.map_append, h.plain_eq hp n hn, k.plain_eq kp n hn]
  of_plain_eq he := by
    -- Neither part can have fewer lines than its plain form, so both have as many.
    have hlen := congrArg List.length he
    have := h.le
    have := k.le
    rw [List.map_append] at he
    simp only [List.length_map, List.length_append] at hlen
    obtain ⟨h1, h2⟩ := List.append_inj he (by rw [List.length_map]; omega)
    exact ⟨h.of_plain_eq h1, k.of_plain_eq h2⟩
  blank := fun ⟨hp, kp⟩ ⟨hq, kq⟩ n hn =>
    List.forall_mem_append.2 ⟨h.blank hp hq n hn, k.blank kp kq n hn⟩
  of_blank := fun ⟨hp, kp⟩ hb =>
    have ⟨h1, h2⟩ := List.forall_mem_append.1 hb
    ⟨h.of_blank hp h1, k.of_blank kp h2⟩

theorem flatMap {α : Type} {xs : List α} {f : α → Setting} {p q : α → Prop}
    (h : ∀ x ∈ xs, Settles (f x) (p x) (q x)) :
    Settles (fun s n => xs.flatMap fun x => f x s n) (∀ x ∈ xs, p x) (∀ x ∈ xs, q x) := by
  induction xs with
  | nil => exact nil.congr (by simp) fun _ => by simp
  | cons x xs ih =>
    obtain ⟨hx, hxs⟩ := List.forall_mem_cons.1 h
    exact (hx.append (ih hxs)).congr List.forall_mem_cons.symm fun _ => List.forall_mem_cons.symm

/-- Lines moved right. -/
theorem indent (h : Settles f p q) (k : Nat) : Settles (fun s n => indentLines k (f s n)) p q where
  flat n := by
    have hflat : ∀ ls : List Text, (∀ l ∈ ls, Flat l) → ∀ l ∈ indentLines k ls, Flat l := by
      intro ls hls l hl
      obtain ⟨m, hm, rfl⟩ := List.mem_map.1 hl
      exact (Text.flat_spaces k).append (hls m hm)
    exact ⟨hflat _ (h.flat n).1, hflat _ (h.flat n).2⟩
  le := by simpa [indentLines] using h.le
  plain_eq hp n hn := by
    rw [← h.plain_eq hp n hn, map_plain_indentLines]
  of_plain_eq he := by
    rw [map_plain_indentLines] at he
    exact h.of_plain_eq (List.map_injective_iff.2 (fun a b hab => List.append_cancel_left hab) he)
  blank hp hq n hn := by
    intro l hl
    obtain ⟨m, hm, rfl⟩ := List.mem_map.1 hl
    exact Text.blankAsSeen_spaces_append.2 (h.blank hp hq n hn m hm)
  of_blank hp hb := h.of_blank hp fun l hl =>
    Text.blankAsSeen_spaces_append.1 (hb _ (List.mem_map_of_mem hl))

/-- Lines set in fewer columns, of which one is left. -/
theorem narrow (h : Settles f p q) (k : Nat) : Settles (fun s n => f s (max (n - k) 1)) p q where
  flat n := h.flat _
  le := by
    have hone : max (1 - k) 1 = 1 := by omega
    rw [hone]
    exact h.le
  plain_eq hp n _ := h.plain_eq hp _ (by omega)
  of_plain_eq he := by
    have hone : max (1 - k) 1 = 1 := by omega
    rw [hone] at he
    exact h.of_plain_eq he
  blank hp hq n _ := h.blank hp hq _ (by omega)
  of_blank hp hb := by
    have hone : max (1 - k) 1 = 1 := by omega
    rw [hone] at hb
    exact h.of_blank hp hb

/-- One line, the same at every width. -/
theorem single (line : Styles → Text) (ha : Flat (line .ansi)) (hp : Flat (line .plain)) :
    Settles (fun s _ => [line s]) ((line .ansi).plain = line .plain)
      (BlankAsSeen (line .ansi)) where
  flat _ := ⟨List.forall_mem_singleton.2 ha, List.forall_mem_singleton.2 hp⟩
  le := Nat.le_refl _
  plain_eq h _ _ := by rw [List.map_singleton, h]
  of_plain_eq he := (List.cons.inj he).1
  blank _ hq _ _ := List.forall_mem_singleton.2 hq
  of_blank _ hb := List.forall_mem_singleton.1 hb

/-- One line that shows its plain form. -/
theorem shown (line : Styles → Text) (ha : Shows (line .ansi) (line .plain))
    (hp : Shows (line .plain) (line .plain)) :
    Settles (fun s _ => [line s]) True (BlankAsSeen (line .ansi)) :=
  (single line ha.flat hp.flat).congr (iff_true_intro ha.plain) fun _ => Iff.rfl

/-- Lines without escape sequences, the same in every style. -/
theorem unstyled {f : Nat → List Text} (h : ∀ n, ∀ l ∈ f n, esc ∉ l ∧ '\n' ∉ l) :
    Settles (fun _ n => f n) True True where
  flat n := by
    have hflat : ∀ l ∈ f n, Flat l := fun l hl => Text.flat_of_not_mem (h n l hl).1 (h n l hl).2
    exact ⟨hflat, hflat⟩
  le := Nat.le_refl _
  plain_eq _ n _ := by
    have hplain : ∀ l ∈ f n, l.plain = l := fun l hl => Text.plain_of_not_mem (h n l hl).1
    rw [List.map_congr_left hplain, List.map_id']
  of_plain_eq _ := trivial
  blank _ _ n _ := fun l hl => Text.blankAsSeen_of_not_mem (h n l hl).1
  of_blank _ _ := trivial

/-- Lines that are ended and read again lose the carriage returns at their ends. They stay in place
exactly if these are as they are seen. -/
theorem ended_lines {r : Prop} (h : Settles f True q)
    (hneat : ∀ n, (∀ l ∈ f .ansi n, l.Neat) ∧ ∀ l ∈ f .plain n, l.Neat)
    (hreturn : r → ∀ n, ∀ l ∈ f .ansi n, ReturnAsSeen l)
    (hone : (∀ l ∈ f .ansi 1, ReturnAsSeen l) → r) :
    Settles (fun s n => (Text.ended (f s n)).lines) r q := by
  have hansi : ∀ n, (Text.ended (f .ansi n)).lines = (f .ansi n).map Text.dropReturn := fun n =>
    lines_ended fun l hl => ((h.flat n).1 l hl).newline
  have hplain : ∀ n, (Text.ended (f .plain n)).lines = (f .plain n).map Text.dropReturn := fun n =>
    lines_ended fun l hl => ((h.flat n).2 l hl).newline
  have hboth : ∀ n, 0 < n → (f .plain n).map Text.dropReturn =
      (f .ansi n).map (Text.dropReturn ∘ Text.plain) := by
    intro n hn
    rw [← h.plain_eq trivial n hn, List.map_map]
  exact {
    flat := fun n => by
      rw [hansi, hplain]
      exact ⟨List.forall_mem_map.2 fun l hl =>
          .dropReturn ((hneat n).1 l hl) ((h.flat n).1 l hl).newline,
        List.forall_mem_map.2 fun l hl =>
          .dropReturn ((hneat n).2 l hl) ((h.flat n).2 l hl).newline⟩
    le := by
      rw [hansi, hplain, List.length_map, List.length_map]
      exact h.le
    plain_eq := fun hr n hn => by
      rw [hansi, hplain, hboth n hn, List.map_map]
      refine List.map_congr_left ?_
      intro l hl
      exact (Text.plain_dropReturn_iff ((hneat n).1 l hl)).2 (hreturn hr n l hl)
    of_plain_eq := fun he => by
      rw [hansi, hplain, hboth 1 (by decide), List.map_map] at he
      refine hone ?_
      intro l hl
      exact (Text.plain_dropReturn_iff ((hneat 1).1 l hl)).1 (List.map_inj_left.1 he l hl)
    blank := fun hr hq n hn => by
      rw [hansi]
      refine List.forall_mem_map.2 ?_
      intro l hl
      exact (Text.blankAsSeen_dropReturn ((hneat n).1 l hl) (hreturn hr n l hl)).2
        (h.blank trivial hq n hn l hl)
    of_blank := fun hr hb => by
      rw [hansi] at hb
      refine h.of_blank trivial ?_
      intro l hl
      exact (Text.blankAsSeen_dropReturn ((hneat 1).1 l hl) (hreturn hr 1 l hl)).1
        (hb _ (List.mem_map_of_mem hl)) }

end Settles

/-! ## Filled prose -/

section Prose

variable {ts : List Token}

/-- Running text of so many tokens. -/
def prose (s : Styles) (ts : List Token) : Text := Text.joinWords (ts.map (Token.phrase s))

/-- The words a token adds to running text show. -/
def Token.WordsShow (t : Token) : Prop := (t.phrase .ansi).WordsShow

instance : DecidablePred Token.WordsShow := fun t =>
  inferInstanceAs (Decidable (t.phrase .ansi).WordsShow)

theorem prose_shows {s : Styles} (hs : s.Tidy) (h : ∀ t ∈ ts, t.Inline Clean) :
    Shows (prose s ts) (prose .plain ts) :=
  Shows.joinWords (phrases_shows hs fun t ht => (h t ht).unit)

theorem wordsShow_prose_iff (s : Styles) :
    (prose s ts).WordsShow ↔ ∀ t ∈ ts, (t.phrase s).WordsShow := by
  rw [prose, Text.wordsShow_joinWords_iff, List.forall_mem_map]

/-- Filled text stays in place exactly if every word shows. -/
theorem prose_settles (h : ∀ t ∈ ts, t.Inline Clean) :
    Settles (fun s n => (prose s ts).wrap n) (∀ t ∈ ts, (t.phrase .ansi).WordsShow) True := by
  rw [← wordsShow_prose_iff]
  have ha := prose_shows ansi_tidy h
  have hp := prose_shows plain_tidy h
  have hwrap : (prose .ansi ts).WordsShow → ∀ n,
      ((prose .ansi ts).wrap n).map Text.plain = (prose .plain ts).wrap n := fun hw n => by
    rw [Text.wrap_plain ha.neat hw, ha.plain]
  exact {
    flat := fun n => ⟨Text.flat_wrap ha.neat n, Text.flat_wrap hp.neat n⟩
    le := by
      have := Text.length_wrap_one_le ha.neat
      rwa [ha.plain] at this
    plain_eq := fun hw n _ => hwrap hw n
    of_plain_eq := fun he => by
      have hlen := congrArg List.length he
      rw [List.length_map, ← ha.plain] at hlen
      exact Text.wordsShow_of_length_wrap_one ha.neat hlen
    blank := fun hw _ n _ l hl => by
      have hl := List.mem_map_of_mem (f := Text.plain) hl
      rw [hwrap hw] at hl
      exact Text.blankAsSeen_of_not_isBlank (Text.isBlank_of_mem_wrap hl)
    of_blank := fun _ _ => trivial }

end Prose

/-! ## Lines kept as they stand -/

theorem esc_mem_truncate {t : Text} (n : Nat) (h : esc ∈ t) : esc ∈ t.truncate n := by
  have hkeep : ∀ (n : Nat) (gs : List Segment) (e : Text), .escape e ∈ gs →
      .escape e ∈ Text.keepVisible n gs := by
    intro n gs e he
    fun_induction Text.keepVisible n gs with
    | case1 => exact he
    | case2 n f gs ih =>
      rcases List.mem_cons.1 he with he | he
      · exact he ▸ List.mem_cons_self
      · exact List.mem_cons_of_mem _ (ih he)
    | case3 c gs ih => exact ih ((List.mem_cons.1 he).resolve_left (by simp))
    | case4 n c gs ih =>
      exact List.mem_cons_of_mem _ (ih ((List.mem_cons.1 he).resolve_left (by simp)))
  rw [← Text.ofSegments_segments t] at h
  obtain ⟨g, hg, he⟩ := List.mem_flatMap.1 h
  cases g with
  | char c =>
    obtain rfl := List.mem_singleton.1 he
    exact absurd rfl (Text.segments_char hg)
  | escape e => exact List.mem_flatMap.2 ⟨.escape e, hkeep n _ e hg, he⟩

/-- A line that is blank if it looks blank in its first column is so however it is cut. -/
theorem blankAsSeen_truncate {t : Text} (hone : (t.truncate 1).BlankAsSeen)
    {n : Nat} (hn : 0 < n) : (t.truncate n).BlankAsSeen := by
  intro hb
  rw [Text.plain_truncate] at hb
  have htake : t.plain.take 1 = (t.plain.take n).take 1 := by
    rw [List.take_take, Nat.min_eq_left hn]
  have hfirst : (t.truncate 1).plain.isBlank = true := by
    rw [Text.plain_truncate, htake]
    exact List.all_eq_true.2 fun c hc => List.all_eq_true.1 hb c (List.mem_of_mem_take hc)
  -- No escape sequence is cut, so there is none.
  have hesc : esc ∉ t := fun he => Text.not_mem_of_isBlank (hone hfirst) (esc_mem_truncate 1 he)
  rw [Text.truncate_of_not_mem hesc]
  rwa [Text.plain_of_not_mem hesc] at hb

theorem verbatim_settles {ts : List Token} (h : ∀ t ∈ ts, t.Inline Clean) :
    Settles (fun s n => (ts.map (Token.phrase s)).map (·.truncate n)) True
      (∀ t ∈ ts, BlankAsSeen ((t.phrase .ansi).truncate 1)) := by
  have hshows : ∀ {s : Styles}, s.Tidy → ∀ t ∈ ts, Shows (t.phrase s) (t.phrase .plain) :=
    fun hs t ht => phrase_shows hs (h t ht).unit
  have hflat : ∀ {s : Styles}, s.Tidy → ∀ n, ∀ l ∈ (ts.map (Token.phrase s)).map (·.truncate n),
      Flat l := by
    intro s hs n l hl
    rw [List.map_map] at hl
    obtain ⟨t, ht, rfl⟩ := List.mem_map.1 hl
    have ht := hshows hs t ht
    exact ⟨Text.terminated_truncate ht.neat.terminated n,
      fun hn => ht.newline (Text.mem_truncate hn)⟩
  have hplain : ∀ n, ((ts.map (Token.phrase .ansi)).map (·.truncate n)).map Text.plain =
      (ts.map (Token.phrase .plain)).map (·.truncate n) := by
    intro n
    rw [List.map_map, List.map_map, List.map_map]
    refine List.map_congr_left ?_
    intro t ht
    have ht := hshows ansi_tidy t ht
    have hesc : esc ∉ t.phrase .plain := ht.plain ▸ Text.not_mem_plain _
    rw [Function.comp_apply, Function.comp_apply, Function.comp_apply,
      Text.plain_truncate, ht.plain, Text.truncate_of_not_mem hesc]
  exact {
    flat := fun n => ⟨hflat ansi_tidy n, hflat plain_tidy n⟩
    le := by
      have hlen := congrArg List.length (hplain 1)
      rw [List.length_map] at hlen
      exact Nat.le_of_eq hlen.symm
    plain_eq := fun _ n _ => hplain n
    of_plain_eq := fun _ => trivial
    blank := fun _ hq n hn => by
      rw [List.map_map]
      intro l hl
      obtain ⟨t, ht, rfl⟩ := List.mem_map.1 hl
      exact blankAsSeen_truncate (hq t ht) hn
    of_blank := fun _ hb t ht => by
      rw [List.map_map] at hb
      exact hb _ (List.mem_map.2 ⟨t, ht, rfl⟩) }

/-! ## Paragraphs -/

theorem map_plain_tagLines {tags body : List Text} (htags : ∀ t ∈ tags, t.Terminated)
    (indent : Nat) :
    (tagLines tags body indent).map Text.plain =
      tagLines (tags.map Text.plain) (body.map Text.plain) indent := by
  unfold tagLines
  rw [List.getLast?_map]
  cases hl : tags.getLast? with
  | none => exact map_plain_indentLines indent body
  | some last =>
    have hlast : last.Terminated := htags last (List.mem_of_getLast? hl)
    rw [Option.map_some, List.map_append, List.map_dropLast]
    congr 1
    cases body with
    | nil => rfl
    | cons first rest =>
      have hpad : (last.pad indent ++ first).plain = last.plain.pad indent ++ first.plain := by
        have hpadded := hlast.append (Text.flat_spaces (indent - last.width)).terminated
        rw [Text.pad, Text.pad, Text.width_plain, Text.plain_append hpadded,
          Text.plain_append hlast, Text.plain_spaces]
      dsimp only [List.map_cons]
      rw [Text.width_plain]
      split
      · rw [List.map_cons, hpad, map_plain_indentLines]
        rfl
      · rw [List.map_cons, map_plain_indentLines, List.map_cons]

/-- Without room for an indent every tag is a line of its own. -/
theorem tagLines_zero (tags body : List Text) : tagLines tags body 0 = tags ++ body := by
  have hzero : ∀ ls : List Text, indentLines 0 ls = ls := fun ls => List.map_id ls
  unfold tagLines
  cases hl : tags.getLast? with
  | none =>
    rw [List.getLast?_eq_none_iff.1 hl]
    exact hzero body
  | some last =>
    obtain ⟨init, rfl⟩ := List.getLast?_eq_some_iff.1 hl
    cases body with
    | nil => simp
    | cons first rest => simp [hzero]

theorem isBlank_of_mem_tagLines {tags body : List Text} {indent : Nat}
    (htags : ∀ t ∈ tags, t.isBlank = false) (hbody : ∀ l ∈ body, l.isBlank = false) :
    ∀ l ∈ tagLines tags body indent, l.isBlank = false := by
  refine forall_tagLines (fun k l hl => ?_) (fun k a b ha _ => ?_) htags hbody
  · rw [Text.isBlank_append, hl, Bool.and_false]
  · rw [Text.isBlank_append, Text.isBlank_append, ha]
    rfl

/-- Tags that look blank are left out with those that are, exactly if they are blank. -/
theorem filter_map_plain (tags : List Text) :
    ((tags.map Text.plain).filter (!·.isBlank)).length ≤ (tags.filter (!·.isBlank)).length ∧
      ((tags.filter (!·.isBlank)).length = ((tags.map Text.plain).filter (!·.isBlank)).length →
        ∀ t ∈ tags, t.BlankAsSeen) ∧
      ((∀ t ∈ tags, t.BlankAsSeen) →
        (tags.filter (!·.isBlank)).map Text.plain = (tags.map Text.plain).filter (!·.isBlank)) := by
  induction tags with
  | nil => simp
  | cons t tags ih =>
    obtain ⟨h1, h2, h3⟩ := ih
    cases hb : t.isBlank with
    | true =>
      have hseen : t.BlankAsSeen := fun _ => hb
      have hplain : t.plain.isBlank = true := Text.isBlank_plain hb
      refine ⟨by simpa [hb, hplain] using h1, fun he => ?_, fun h => ?_⟩
      · exact List.forall_mem_cons.2 ⟨hseen, h2 (by simpa [hb, hplain] using he)⟩
      · simpa [hb, hplain] using h3 (List.forall_mem_cons.1 h).2
    | false =>
      cases hp : t.plain.isBlank with
      | true =>
        refine ⟨?_, fun he => ?_, fun h => ?_⟩
        · simp [hb, hp]
          omega
        · simp [hb, hp] at he
          omega
        · exact absurd ((List.forall_mem_cons.1 h).1 hp) (by simp [hb])
      | false =>
        have hseen : t.BlankAsSeen := Text.blankAsSeen_of_not_isBlank hp
        refine ⟨by simpa [hb, hp] using h1, fun he => ?_, fun h => ?_⟩
        · exact List.forall_mem_cons.2 ⟨hseen, h2 (by simpa [hb, hp] using he)⟩
        · simpa [hb, hp] using h3 (List.forall_mem_cons.1 h).2

/-- A paragraph stays in place exactly if no tag only looks blank and every word shows. -/
theorem paragraph_settles (tags : Styles → List Text) {contents : List Token} (indent : Nat)
    (htags : ∀ {s : Styles}, s.Tidy → List.Forall₂ Shows (tags s) (tags .plain))
    (hc : ∀ t ∈ contents, t.Inline Clean) :
    Settles (fun s n => paragraphLines (tags s) (prose s contents) n indent)
      ((∀ t ∈ tags .ansi, BlankAsSeen t) ∧ ∀ t ∈ contents, t.WordsShow) True := by
  have hprose := prose_settles hc
  have htag : ∀ {s : Styles}, s.Tidy → ∀ t ∈ (tags s).filter (!·.isBlank), Flat t :=
    fun hs t ht =>
      have ⟨h1, h2⟩ := Shows.forall_mem (htags hs) t (List.mem_filter.1 ht).1
      ⟨h1.terminated, h2⟩
  obtain ⟨hle, heq, hmap⟩ := filter_map_plain (tags .ansi)
  rw [Shows.map_plain (htags ansi_tidy)] at hle heq hmap
  have hone : ∀ s : Styles, paragraphLines (tags s) (prose s contents) 1 indent =
      (tags s).filter (!·.isBlank) ++ (prose s contents).wrap 1 := by
    intro s
    have hzero : min indent (1 - 1) = 0 := by omega
    rw [paragraphLines, hzero]
    exact tagLines_zero _ _
  have hle' := hprose.le
  have hplain : (∀ t ∈ tags .ansi, BlankAsSeen t) → (∀ t ∈ contents, t.WordsShow) → ∀ n, 0 < n →
      (paragraphLines (tags .ansi) (prose .ansi contents) n indent).map Text.plain =
        paragraphLines (tags .plain) (prose .plain contents) n indent := by
    intro ht hw n hn
    have hbody := hprose.plain_eq hw (n - min indent (n - 1)) (by omega)
    rw [paragraphLines, map_plain_tagLines fun t h => (htag ansi_tidy t h).terminated, hmap ht,
      hbody, paragraphLines]
  exact {
    flat := fun n => by
      have hflat : ∀ {s : Styles}, s.Tidy →
          (∀ l ∈ (prose s contents).wrap (n - min indent (n - 1)), Flat l) →
          ∀ l ∈ paragraphLines (tags s) (prose s contents) n indent, Flat l := fun hs hbody =>
        forall_tagLines (fun k _ h => (Text.flat_spaces k).append h)
          (fun k _ _ h1 h2 => (h1.append (Text.flat_spaces k)).append h2) (htag hs) hbody
      exact ⟨hflat ansi_tidy (hprose.flat _).1, hflat plain_tidy (hprose.flat _).2⟩
    le := by
      rw [hone, hone, List.length_append, List.length_append]
      omega
    plain_eq := fun ⟨ht, hw⟩ n hn => hplain ht hw n hn
    of_plain_eq := fun he => by
      -- The lines of the tags and those of the body are never fewer than without styles.
      rw [hone, hone, List.map_append] at he
      have hcount := congrArg List.length he
      simp only [List.length_append, List.length_map] at hcount
      have htags : ((tags .ansi).filter (!·.isBlank)).length =
          ((tags .plain).filter (!·.isBlank)).length := by omega
      obtain ⟨-, hbody⟩ := List.append_inj he (by rw [List.length_map, htags])
      exact ⟨heq htags, hprose.of_plain_eq hbody⟩
    blank := fun ⟨ht, hw⟩ _ n hn l hl => by
      have hl := List.mem_map_of_mem (f := Text.plain) hl
      rw [hplain ht hw n hn] at hl
      refine Text.blankAsSeen_of_not_isBlank (isBlank_of_mem_tagLines ?_ ?_ _ hl)
      · intro t ht
        simpa using (List.mem_filter.1 ht).2
      · exact fun l hl => Text.isBlank_of_mem_wrap hl
    of_blank := fun _ _ => trivial }

end TextPager.Man