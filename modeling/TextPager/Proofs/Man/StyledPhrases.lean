import TextPager.Proofs.Man.Phrases
import TextPager.Proofs.Text.StyledFilling

/-!
# Phrases with and without styles

Styling a phrase puts escape sequences into it, which hold no white space, and changes nothing
else: deleting them leaves the phrase as it is without styles. A link is the exception. The
address goes into an escape sequence as it stands, and a bell in it ends that sequence, so what
follows the bell is seen.

**Results.**
* `render_shows`, `phrase_shows`: a styled phrase shows the plain one.
* `linkText_ansi`: what is left of a link is what its address spills, its text and the
  punctuation.
* `plain_linkText_iff`: that is the link without styles exactly if nothing is spilled and the words
  of its text show.
-/
namespace TextPager.Man

open Text (Shows)

/-- A character that may stand in a token: no escape and no newline. -/
def Clean (c : Char) : Prop := c ≠ esc ∧ c ≠ '\n'

instance : DecidablePred Clean := fun c => inferInstanceAs (Decidable (c ≠ esc ∧ c ≠ '\n'))

section Clean

variable {t : Text}

theorem not_mem_esc (h : madeOf Clean t) : esc ∉ t := fun he => (h esc he).1 rfl

theorem not_mem_newline (h : madeOf Clean t) : '\n' ∉ t := fun hn => (h '\n' hn).2 rfl

theorem shows_self (h : madeOf Clean t) : Shows t t := .refl (not_mem_esc h) (not_mem_newline h)

theorem plain_of_clean (h : madeOf Clean t) : t.plain = t := Text.plain_of_not_mem (not_mem_esc h)

end Clean

/-! ## Emphasis -/

/-- The sequences of a style table show nothing. -/
structure Styles.Tidy (s : Styles) : Prop where
  bold : Shows s.bold []
  underline : Shows s.underline []
  normal : Shows s.normal []

theorem ansi_tidy : Styles.ansi.Tidy :=
  ⟨⟨by decide, by decide, by decide⟩, ⟨by decide, by decide, by decide⟩,
    ⟨by decide, by decide, by decide⟩⟩

theorem plain_tidy : Styles.plain.Tidy := ⟨.nil, .nil, .nil⟩

/-- Both style tables are tidy. -/
theorem tidy_of_eq {s : Styles} (h : s = .plain ∨ s = .ansi) : s.Tidy := by
  rcases h with rfl | rfl
  · exact plain_tidy
  · exact ansi_tidy

variable {s : Styles}

theorem styled_shows (hs : s.Tidy) {start x y : Text} (hstart : Shows start []) (h : Shows x y) :
    Shows (s.styled start x) y := by
  unfold Styles.styled
  split
  · exact h
  · simpa using (hstart.append h).append hs.normal

theorem apply_shows (hs : s.Tidy) (e : Emphasis) {x y : Text} (h : Shows x y) :
    Shows (s.apply e x) y := by
  cases e with
  | bold => exact styled_shows hs hs.bold h
  | underline => exact styled_shows hs hs.underline h
  | roman => exact h

theorem alternate_shows (hs : s.Tidy) {ts : List Text} (h : ∀ t ∈ ts, madeOf Clean t)
    (even odd : Emphasis) : List.Forall₂ Shows (Font.alternate s even odd ts) ts := by
  induction ts generalizing even odd with
  | nil => exact .nil
  | cons t ts ih =>
    obtain ⟨ht, hts⟩ := List.forall_mem_cons.1 h
    exact .cons (apply_shows hs even (shows_self ht)) (ih hts odd even)

/-- Text in a font shows the text. -/
theorem render_shows (hs : s.Tidy) (f : Font) {t : Text} (h : madeOf Clean t) :
    Shows (f.render s t) t := by
  unfold Font.render
  split
  · rename_i even odd _
    have hpieces : ∀ p ∈ t.piecesAt ' ', madeOf Clean p := fun p hp c hc =>
      h c (Text.mem_of_mem_pieces hp hc)
    have hjoin : Text.joinWords (t.piecesAt ' ') = t := Text.intercalate_piecesAt ' ' t
    have hj := Shows.joinWords (alternate_shows hs hpieces even odd)
    rwa [hjoin] at hj
  · exact apply_shows hs _ (shows_self h)

theorem optionText_shows (hs : s.Tidy) {name : Text} {argument : Option Text}
    (hn : madeOf Clean name) (ha : ∀ a ∈ argument, madeOf Clean a) :
    Shows (optionText s name argument) (optionText .plain name argument) := by
  have hopen : Shows ['['] ['['] := .refl (by decide) (by decide)
  have hclose : Shows [']'] [']'] := .refl (by decide) (by decide)
  have hspace : Shows [' '] [' '] := .refl (by decide) (by decide)
  have hname := hopen.append (apply_shows hs .bold (shows_self hn))
  cases argument with
  | none => exact hname.append hclose
  | some a =>
    have hargument := apply_shows hs .underline (shows_self (ha a rfl))
    exact ((hname.append hspace).append hargument).append hclose

/-- What a token adds to running text shows what it adds without styles. -/
theorem phrase_shows (hs : s.Tidy) {t : Token} (h : t.Unit Clean) :
    Shows (t.phrase s) (t.phrase .plain) := by
  cases t with
  | text l | unknown l => exact shows_self h
  | font f t =>
    rw [Token.phrase, Token.phrase, render_plain]
    exact render_shows hs f h
  | option name argument => exact optionText_shows hs h.1 h.2
  | synopsis command contents =>
    rw [Token.phrase, Token.phrase, Styles.plain_apply]
    exact apply_shows hs .bold (shows_self h.1)
  | _ => exact .nil

theorem phrases_shows (hs : s.Tidy) {ts : List Token} (h : ∀ t ∈ ts, t.Unit Clean) :
    List.Forall₂ Shows (ts.map (Token.phrase s)) (ts.map (Token.phrase .plain)) := by
  induction ts with
  | nil => exact .nil
  | cons t ts ih =>
    obtain ⟨ht, hts⟩ := List.forall_mem_cons.1 h
    exact .cons (phrase_shows hs ht) (ih hts)

/-! ## Links -/

/-- What is left of an address behind its first bell. -/
def spill (address : Text) : Text := (address.dropWhile (· != bell)).tail

/-- What a link begins with. -/
def linkStart (target : Text) : Text := "\x1b]8;;".toList ++ target ++ "\x1b\\".toList

theorem spill_append {a b : Text} (h : bell ∉ a) : spill (a ++ b) = spill b := by
  have hne : ∀ c ∈ a, (c != bell) = true := fun c hc => by
    simpa using fun hb : c = bell => h (hb ▸ hc)
  rw [spill, List.dropWhile_append_of_pos hne, spill]

theorem spill_of_not_mem {a : Text} (h : bell ∉ a) : spill a = [] := by
  simpa [spill] using spill_append (b := []) h

/-- A character that does not close an operating system command stays inside it. -/
theorem next_command {c : Char} (he : c ≠ esc) (hb : c ≠ bell) :
    (Scan.command false).next c = .command false := by
  simp [Scan.next, he, hb]

theorem command_append {t : Text} (he : esc ∉ t) (hb : bell ∉ t) (u : Text) :
    (Scan.command false).run (t ++ u) = (Scan.command false).run u ∧
      (Text.segmentsFrom (.command false) (t ++ u)).2 =
        (Text.segmentsFrom (.command false) u).2 := by
  induction t with
  | nil => exact ⟨rfl, rfl⟩
  | cons c t ih =>
    rw [List.mem_cons, not_or] at he hb
    obtain ⟨h1, h2⟩ := ih he.2 hb.2
    have hn := next_command (Ne.symm he.1) (Ne.symm hb.1)
    refine ⟨?_, ?_⟩
    · rw [List.cons_append, Scan.run, List.foldl_cons, hn]
      exact h1
    · simpa [Text.segmentsFrom, hn] using h2

/-- The beginning of a link shows what the target spills. -/
theorem linkStart_spill {target : Text} (he : esc ∉ target) :
    (linkStart target).Terminated ∧ (linkStart target).plain = spill target := by
  have hrun : ∀ v : Text, Scan.ground.run ("\x1b]8;;".toList ++ v) = (Scan.command false).run v :=
    fun v => rfl
  have hsegments : ∀ v : Text, Text.plain ("\x1b]8;;".toList ++ v) =
      Text.ofSegments ((Text.segmentsFrom (.command false) v).2.filter Segment.isChar) := by
    intro v
    rfl
  unfold linkStart
  rw [List.append_assoc, Text.Terminated, hrun, hsegments]
  by_cases hb : bell ∈ target
  · obtain ⟨front, rest, rfl, hfront⟩ := List.eq_append_cons_of_mem hb
    have hef : esc ∉ front := fun h => he (List.mem_append_left _ h)
    have her : esc ∉ rest := fun h => he (List.mem_append_right _ (List.mem_cons_of_mem _ h))
    -- Behind the bell the scan is on the ground, and the end of the sequence is one of its own.
    have hend : Shows "\x1b\\".toList [] := ⟨by decide, by decide, by decide⟩
    have hrest := Text.terminated_of_not_mem her
    obtain ⟨h1, h2⟩ := command_append hef hfront (bell :: (rest ++ "\x1b\\".toList))
    rw [List.append_assoc, List.cons_append, h1, h2, spill_append hfront]
    refine ⟨hrest.append hend.flat.terminated, ?_⟩
    calc Text.plain (rest ++ "\x1b\\".toList)
        = Text.plain rest ++ [] := by rw [Text.plain_append hrest, hend.plain]
      _ = rest := by rw [List.append_nil, Text.plain_of_not_mem her]
  · obtain ⟨h1, h2⟩ := command_append he hb "\x1b\\".toList
    rw [h1, h2, spill_of_not_mem hb]
    exact ⟨rfl, rfl⟩

/-- What a link shows between its start and its end. -/
def linkShown (address contents : Text) : Text :=
  if (Text.joinWords contents.words).isEmpty then address else Text.joinWords contents.words

theorem linkText_eq (kind : LinkKind) (address contents punctuation : Text) :
    linkText .ansi kind address contents punctuation =
      linkStart (kind.scheme ++ address) ++ linkShown address contents ++
        "\x1b]8;;\x1b\\".toList ++ punctuation := by
  unfold linkStart
  simp [linkText, Styles.hyperlink, Styles.ansi, linkShown]

theorem linkText_plain (kind : LinkKind) (address contents punctuation : Text) :
    linkText .plain kind address contents punctuation =
      linkShown address contents ++ punctuation := rfl

theorem linkShown_flat {address contents : Text} (ha : madeOf Clean address)
    (hc : contents.Neat) : (linkShown address contents).Flat := by
  unfold linkShown
  split
  · exact (shows_self ha).flat
  · exact .joinWords fun w hw => Text.flat_of_mem_words hc hw

/-- What is left of a link: what its address spills, what it shows, and the punctuation. -/
theorem linkText_ansi (kind : LinkKind) {address contents punctuation : Text}
    (ha : madeOf Clean address) (hc : contents.Neat) (hp : madeOf Clean punctuation) :
    (linkText .ansi kind address contents punctuation).Flat ∧
      (linkText .ansi kind address contents punctuation).plain =
        spill address ++ (linkShown address contents).plain ++ punctuation := by
  have hscheme : madeOf Clean kind.scheme ∧ bell ∉ kind.scheme := by
    refine ⟨Text.forall_mem_of_all ?_, ?_⟩ <;> cases kind <;> decide
  have htarget : madeOf Clean (kind.scheme ++ address) := hscheme.1.append ha
  obtain ⟨hterm, hspill⟩ := linkStart_spill (not_mem_esc htarget)
  have hstart : (linkStart (kind.scheme ++ address)).Flat := by
    refine ⟨hterm, fun hn => ?_⟩
    unfold linkStart at hn
    rw [List.mem_append, List.mem_append] at hn
    rcases hn with (hn | hn) | hn
    · revert hn; decide
    · exact not_mem_newline htarget hn
    · revert hn; decide
  have hend : Shows "\x1b]8;;\x1b\\".toList [] := ⟨by decide, by decide, by decide⟩
  have hshown := linkShown_flat ha hc
  have hmiddle := (hstart.append hshown).append hend.flat
  rw [linkText_eq]
  refine ⟨hmiddle.append (shows_self hp).flat, ?_⟩
  rw [Text.plain_append hmiddle.terminated, Text.plain_append (hstart.append hshown).terminated,
    Text.plain_append hstart.terminated, hspill, spill_append hscheme.2, hend.plain,
    plain_of_clean hp, List.append_nil]

/-- Words with a space after every one, the last too. -/
def spaced (ws : List Text) : Text := ws.flatMap fun w => w ++ [' ']

theorem joinWords_append_space {ws : List Text} (h : ws ≠ []) :
    Text.joinWords ws ++ [' '] = spaced ws := by
  induction ws with
  | nil => exact absurd rfl h
  | cons w ws ih =>
    cases ws with
    | nil => simp [spaced]
    | cons v ws =>
      rw [Text.joinWords_cons_cons, spaced, List.flatMap_cons, ← spaced,
        ← ih (List.cons_ne_nil v ws)]
      simp

theorem length_joinWords {ws : List Text} (h : ws ≠ []) :
    (Text.joinWords ws).length + 1 = (spaced ws).length := by
  rw [← joinWords_append_space h, List.length_append, List.length_singleton]

theorem length_spaced_filter_le (ws : List Text) :
    (spaced ((ws.filter fun w => 0 < w.width).map Text.plain)).length ≤
      (spaced (ws.map Text.plain)).length := by
  induction ws with
  | nil => exact Nat.le_refl 0
  | cons w ws ih =>
    simp only [spaced] at ih ⊢
    rw [List.filter_cons]
    split <;> simp only [List.map_cons, List.flatMap_cons, List.length_append] <;> omega

/-- Words that show nothing still cost a space. -/
theorem length_joinWords_filter_lt {ws : List Text} (hne : (ws.filter fun w => 0 < w.width) ≠ [])
    (h : ∃ w ∈ ws, w.width = 0) :
    (Text.joinWords ((ws.filter fun w => 0 < w.width).map Text.plain)).length <
      (Text.joinWords (ws.map Text.plain)).length := by
  have hws : ws ≠ [] := by
    intro h0
    rw [h0] at hne
    exact hne rfl
  have hne' : (ws.filter fun w => 0 < w.width).map Text.plain ≠ [] := by simpa using hne
  have hws' : ws.map Text.plain ≠ [] := by simpa using hws
  have h1 := length_joinWords hne'
  have h2 := length_joinWords hws'
  have hlt : (spaced ((ws.filter fun w => 0 < w.width).map Text.plain)).length <
      (spaced (ws.map Text.plain)).length := by
    obtain ⟨w, hw, h0⟩ := h
    obtain ⟨a, b, rfl⟩ := List.append_of_mem hw
    have ha := length_spaced_filter_le a
    have hb := length_spaced_filter_le b
    simp [spaced, h0] at ha hb ⊢
    omega
  omega

theorem joinWords_replicate_nil (k : Nat) :
    Text.joinWords (List.replicate k []) = Text.spaces (k - 1) := by
  induction k with
  | zero => rfl
  | succ k ih =>
    cases k with
    | zero => rfl
    | succ k =>
      rw [List.replicate_succ] at ih ⊢
      rw [List.replicate_succ, Text.joinWords_cons_cons, ih]
      rfl

/-- An address that spills has one bell more than what it spills. -/
theorem spill_append_spaces_iff {address : Text} {m : Nat} :
    spill address ++ Text.spaces m = address ↔ spill address = [] ∧ address = Text.spaces m := by
  refine ⟨fun h => ?_, fun ⟨h1, h2⟩ => by rw [h1, List.nil_append, h2]⟩
  by_cases hb : bell ∈ address
  · exfalso
    obtain ⟨front, rest, rfl, hfront⟩ := List.eq_append_cons_of_mem hb
    have hspill : spill (front ++ bell :: rest) = rest := spill_append hfront
    have hspaces : bell ∉ Text.spaces m := Text.not_mem_spaces (by decide) m
    rw [hspill] at h
    have hcount := congrArg (List.count bell) h
    rw [List.count_append, List.count_append, List.count_cons_self,
      List.count_eq_zero_of_not_mem hfront, List.count_eq_zero_of_not_mem hspaces] at hcount
    omega
  · have hs := spill_of_not_mem hb
    rw [hs, List.nil_append] at h
    exact ⟨hs, h.symm⟩

theorem linkShown_of_words {address x : Text} (h : x.words ≠ []) :
    linkShown address x = Text.joinWords x.words := by
  have he := Text.isEmpty_joinWords fun w hw => (Text.mem_words (t := x) hw).1
  simp [linkShown, he, h]

theorem linkShown_of_no_words {address x : Text} (h : x.words = []) :
    linkShown address x = address := by
  simp [linkShown, h]

theorem plain_joinWords_words {x : Text} (hx : x.Neat) :
    (Text.joinWords x.words).plain = Text.joinWords (x.words.map Text.plain) :=
  Text.plain_joinWords fun _ hw => (Text.flat_of_mem_words hx hw).terminated

/-- If all words of the text show, the text is shown in both styles, or the address is. -/
theorem plain_linkShown {address x : Text} (ha : madeOf Clean address) (hx : x.Neat)
    (hall : x.WordsShow) : (linkShown address x).plain = linkShown address x.plain := by
  have hmap := Text.words_plain_of_wordsShow hx hall
  by_cases h0 : x.words = []
  · have hp0 : x.plain.words = [] := by rw [hmap, h0]; rfl
    rw [linkShown_of_no_words h0, linkShown_of_no_words hp0, plain_of_clean ha]
  · have hp0 : x.plain.words ≠ [] := by simpa [hmap] using h0
    rw [linkShown_of_words h0, linkShown_of_words hp0, plain_joinWords_words hx, hmap]

/-- Words of which none shows are the spaces between them. -/
theorem plain_joinWords_of_hidden {x : Text} (hx : x.Neat) (h : x.plain.words = []) :
    (Text.joinWords x.words).plain = Text.spaces (x.words.length - 1) := by
  have hnone : ∀ w ∈ x.words, Text.plain w = [] := by
    rw [Text.words_plain hx, List.map_eq_nil_iff, List.filter_eq_nil_iff] at h
    intro w hw
    have := h w hw
    exact Text.plain_eq_nil_iff.2 (by simpa using this)
  have hmap : x.words.map Text.plain = List.replicate x.words.length [] :=
    List.map_eq_replicate_iff.2 hnone
  rw [plain_joinWords_words hx, hmap, joinWords_replicate_nil]

/-- **When a link is laid out in place.** Nothing is spilled, and every word of the text shows; or
no word does, and the address happens to be as many spaces as stand between them. -/
theorem plain_linkText_iff (kind : LinkKind) {address x punctuation : Text}
    (ha : madeOf Clean address) (hx : x.Neat) (hp : madeOf Clean punctuation) :
    (linkText .ansi kind address x punctuation).plain =
        linkText .plain kind address x.plain punctuation ↔
      spill address = [] ∧
        (x.WordsShow ∨ (x.plain.words = [] ∧ address = Text.spaces (x.words.length - 1))) := by
  rw [(linkText_ansi kind ha hx hp).2, linkText_plain, List.append_left_inj]
  by_cases hall : x.WordsShow
  · simp [plain_linkShown ha hx hall, hall]
  · have hex : ∃ w ∈ x.words, w.width = 0 := by
      simpa [Text.WordsShow] using hall
    have h0 : x.words ≠ [] := by
      obtain ⟨w, hw, -⟩ := hex
      exact List.ne_nil_of_mem hw
    rw [linkShown_of_words h0]
    by_cases hp0 : x.plain.words = []
    · rw [linkShown_of_no_words hp0, plain_joinWords_of_hidden hx hp0, spill_append_spaces_iff]
      simp [hall, hp0]
    · -- The words that show nothing make the styled text longer.
      have hwords := Text.words_plain hx
      have hlt := length_joinWords_filter_lt (by simpa [hwords] using hp0) hex
      rw [linkShown_of_words hp0, hwords, plain_joinWords_words hx]
      constructor
      · intro he
        have := congrArg List.length he
        rw [List.length_append] at this
        omega
      · intro h
        rcases h with ⟨-, h | ⟨h, -⟩⟩
        · exact absurd h hall
        · exact absurd h (hwords ▸ hp0)

end TextPager.Man
