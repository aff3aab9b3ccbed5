import TextPager.Proofs.Man.StyledLines

/-!
# Synopses and sections with and without styles

A synopsis is set word by word, each unit whole, so the sequences in a unit cost nothing. What can
go wrong is a line that looks blank, and inside a section, where the lines are read again, a line
that ends in a carriage return. Both are told from the phrases of the commands alone.

**Results.**
* `synopsis_settles`: a synopsis always stays in place.
* `synopsis_lines_settles`: inside a section it does if no phrase ends in a carriage return only
  as seen.
* `section_settles`: a section stays in place exactly if its running text and its synopses do.
-/
namespace TextPager.Man

open Text (Shows Flat BlankAsSeen ReturnAsSeen Unitwise)

/-! ## Commands -/

/-- Groups set as the lines of a command: all but the first stand right of its name. -/
def hung (hang : Nat) : List (List Text) → List Text
  | [] => []
  | g :: gs => Text.joinWords g :: gs.map fun g => Text.spaces hang ++ Text.joinWords g

theorem mem_hung {hang : Nat} {gs : List (List Text)} {l : Text} (h : l ∈ hung hang gs) :
    ∃ k, ∃ g ∈ gs, l = Text.spaces k ++ Text.joinWords g := by
  cases gs with
  | nil => cases h
  | cons g gs =>
    rcases List.mem_cons.1 h with rfl | h
    · exact ⟨0, g, List.mem_cons_self, rfl⟩
    · obtain ⟨m, hm, rfl⟩ := List.mem_map.1 h
      exact ⟨hang, m, List.mem_cons_of_mem _ hm, rfl⟩

theorem exists_mem_hung (hang : Nat) {gs : List (List Text)} {g : List Text} (h : g ∈ gs) :
    ∃ k, Text.spaces k ++ Text.joinWords g ∈ hung hang gs := by
  cases gs with
  | nil => cases h
  | cons m gs =>
    rcases List.mem_cons.1 h with rfl | h
    · exact ⟨0, List.mem_cons_self⟩
    · exact ⟨hang, List.mem_cons_of_mem _ (List.mem_map.2 ⟨g, h, rfl⟩)⟩

theorem map_plain_hung (hang : Nat) {gs : List (List Text)}
    (h : ∀ g ∈ gs, ∀ u ∈ g, u.Terminated) :
    (hung hang gs).map Text.plain = hung hang (gs.map (List.map Text.plain)) := by
  cases gs with
  | nil => rfl
  | cons g gs =>
    obtain ⟨hg, hgs⟩ := List.forall_mem_cons.1 h
    rw [hung, List.map_cons, Text.plain_joinWords hg, List.map_map, List.map_cons, hung,
      List.map_map]
    congr 1
    refine List.map_congr_left ?_
    intro m hm
    rw [Function.comp_apply, Function.comp_apply, Text.plain_spaces_append,
      Text.plain_joinWords (hgs m hm)]

/-- The groups of the phrases that share a line of a command. -/
def Command.groups (s : Styles) (n : Nat) (c : Command) : List (List Text) :=
  Text.groups 0 (max n 1) (max (n - (c.name.width + 1)) 1) (c.phrases s)

namespace Command

variable {c : Command} {s : Styles}

theorem lines_eq (s : Styles) (n : Nat) (c : Command) :
    c.lines s n = hung (c.name.width + 1) (c.groups s n) := by
  rw [lines, commandLines, Text.fillHanging, Text.fill_eq, Text.keptLead_zero]
  show _ = hung _ (Text.groups 0 _ _ (s.apply .bold c.name :: c.units.map (Token.phrase s)))
  cases Text.groups 0 (max n 1) (max (n - (c.name.width + 1)) 1)
      (s.apply .bold c.name :: c.units.map (Token.phrase s)) with
  | nil => rfl
  | cons g gs => simp [Text.setGroups, hung, indentLines, Text.spaces, Function.comp_def]

/-- A command of clean strings. -/
def IsClean (c : Command) : Prop := madeOf Clean c.name ∧ ∀ t ∈ c.units, t.Unit Clean

theorem phrases_shows (hs : s.Tidy) (h : c.IsClean) :
    List.Forall₂ Shows (c.phrases s) (c.phrases .plain) := by
  refine .cons ?_ (Man.phrases_shows hs h.2)
  rw [Styles.plain_apply]
  exact apply_shows hs .bold (shows_self h.1)

theorem neat_phrases (hs : s.Tidy) (h : c.IsClean) : ∀ x ∈ c.phrases s, x.Neat ∧ '\n' ∉ x :=
  Shows.forall_mem (phrases_shows hs h)

theorem neat_lines (hs : s.Tidy) (h : c.IsClean) (n : Nat) :
    ∀ l ∈ c.lines s n, l.Neat ∧ '\n' ∉ l := by
  intro l hl
  rw [lines_eq] at hl
  obtain ⟨k, g, hg, rfl⟩ := mem_hung hl
  have hu := fun u (hu : u ∈ g) => neat_phrases hs h u (Text.mem_of_mem_groups hg hu)
  have hflat := (Text.flat_spaces k).append (.joinWords fun u hm =>
    ⟨(hu u hm).1.terminated, (hu u hm).2⟩)
  have hspaces := Text.neat_of_not_mem (Text.not_mem_spaces (c := esc) (by decide) k)
  exact ⟨hspaces.append (Text.neat_joinWords fun u hm => (hu u hm).1), hflat.newline⟩

/-- The lines of a command hold what its phrases hold. -/
theorem forall_lines {Q : Text → Prop} (hQ : Unitwise Q) (hs : s.Tidy) (h : c.IsClean)
    (hall : ∀ x ∈ c.phrases s, Q x) (n : Nat) : ∀ l ∈ c.lines s n, Q l := by
  intro l hl
  rw [lines_eq] at hl
  obtain ⟨k, g, hg, rfl⟩ := mem_hung hl
  refine hQ.line k g ?_
  intro u hu
  have hmem := Text.mem_of_mem_groups hg hu
  exact ⟨(neat_phrases hs h u hmem).1, hall u hmem⟩

/-- At one column the phrases of a command hold what its lines hold. -/
theorem forall_phrases {Q : Text → Prop} (hQ : Unitwise Q) (hs : s.Tidy) (h : c.IsClean)
    (hall : ∀ l ∈ c.lines s 1, Q l) : ∀ x ∈ c.phrases s, Q x := by
  intro x hx
  have hone : c.groups s 1 = Text.groups 0 1 1 (c.phrases s) := by
    rw [groups]
    congr 1
    omega
  rw [← Text.flatten_groups 0 1 1 (c.phrases s), ← hone] at hx
  obtain ⟨g, hg, hx⟩ := List.mem_flatten.1 hx
  obtain ⟨k, hk⟩ := exists_mem_hung (c.name.width + 1) hg
  rw [← lines_eq] at hk
  have hneat : ∀ u ∈ g, u.Neat := fun u hu =>
    (neat_phrases hs h u (Text.mem_of_mem_groups hg hu)).1
  exact hQ.units (Text.aloneOrHidden_groups _ g (hone ▸ hg)) hneat (hall _ hk) x hx

theorem map_plain_lines (h : c.IsClean) (n : Nat) :
    (c.lines .ansi n).map Text.plain = c.lines .plain n := by
  have hgroups : c.groups .plain n = (c.groups .ansi n).map (List.map Text.plain) := by
    rw [groups, groups, ← Text.groups_map_plain, Shows.map_plain (phrases_shows ansi_tidy h)]
  rw [lines_eq, lines_eq, hgroups]
  exact map_plain_hung _ fun g hg u hu =>
    (neat_phrases ansi_tidy h u (Text.mem_of_mem_groups hg hu)).1.terminated

/-- A command stays in place. -/
theorem settles (h : c.IsClean) :
    Settles (fun s n => c.lines s n) True (∀ x ∈ c.phrases .ansi, BlankAsSeen x) where
  flat n := by
    have hflat : ∀ {s : Styles}, s.Tidy → ∀ l ∈ c.lines s n, Flat l := fun hs l hl =>
      have ⟨h1, h2⟩ := neat_lines hs h n l hl
      ⟨h1.terminated, h2⟩
    exact ⟨hflat ansi_tidy, hflat plain_tidy⟩
  le := by
    have hlen := congrArg List.length (map_plain_lines h 1)
    rw [List.length_map] at hlen
    exact Nat.le_of_eq hlen.symm
  plain_eq _ n _ := map_plain_lines h n
  of_plain_eq _ := trivial
  blank _ hq n _ := forall_lines Text.unitwise_blankAsSeen ansi_tidy h hq n
  of_blank _ hb := forall_phrases Text.unitwise_blankAsSeen ansi_tidy h hb

end Command

/-! ## Synopses -/

/-- The lines of a synopsis. -/
def synopsisSetting (name : Text) (contents : List Token) : Setting := fun s n =>
  (commands name [] contents).flatMap (Command.lines s n)

/-- What is filled into the lines of a synopsis. -/
def synopsisPhrases (s : Styles) (name : Text) (contents : List Token) : List Text :=
  s.apply .bold name :: contents.map (Token.phrase s)

section Synopsis

variable {name : Text} {contents : List Token}

theorem commands_clean (hn : madeOf Clean name) (hc : ∀ t ∈ contents, t.Unit Clean) :
    ∀ c ∈ commands name [] contents, c.IsClean := by
  refine (forall_commands_iff (madeOf Clean) (Token.Unit Clean) contents name []).2
    ⟨hn, by simp, fun t ht => ?_⟩
  have hunit := hc t ht
  cases t with
  | synopsis next _ => exact hunit.1
  | _ => exact hunit

theorem forall_synopsisPhrases_iff (s : Styles) (Q : Text → Prop) :
    (∀ c ∈ commands name [] contents, ∀ x ∈ c.phrases s, Q x) ↔
      ∀ x ∈ synopsisPhrases s name contents, Q x := by
  rw [forall_phrases_iff]
  simp [synopsisPhrases]

/-- A synopsis stays in place. -/
theorem synopsis_settles (hn : madeOf Clean name) (hc : ∀ t ∈ contents, t.Unit Clean) :
    Settles (synopsisSetting name contents) True
      (∀ x ∈ synopsisPhrases .ansi name contents, BlankAsSeen x) :=
  (Settles.flatMap fun c h => Command.settles (commands_clean hn hc c h)).congr (by simp)
    fun _ => forall_synopsisPhrases_iff .ansi BlankAsSeen

theorem neat_synopsisSetting (hn : madeOf Clean name) (hc : ∀ t ∈ contents, t.Unit Clean)
    {s : Styles} (hs : s.Tidy) (n : Nat) : ∀ l ∈ synopsisSetting name contents s n, l.Neat := by
  intro l hl
  obtain ⟨c, hm, hl⟩ := List.mem_flatMap.1 hl
  exact (Command.neat_lines hs (commands_clean hn hc c hm) n l hl).1

/-- In a section a synopsis loses the carriage returns at the ends of its lines. It stays in place
exactly if these are as they are seen. -/
theorem synopsis_lines_settles (hn : madeOf Clean name) (hc : ∀ t ∈ contents, t.Unit Clean) :
    Settles (fun s n => (Text.ended (synopsisSetting name contents s n)).lines)
      (∀ x ∈ synopsisPhrases .ansi name contents, ReturnAsSeen x)
      (∀ x ∈ synopsisPhrases .ansi name contents, BlankAsSeen x) := by
  have hclean := commands_clean hn hc
  refine (synopsis_settles hn hc).ended_lines
    (fun n => ⟨neat_synopsisSetting hn hc ansi_tidy n, neat_synopsisSetting hn hc plain_tidy n⟩)
    (fun hr n l hl => ?_) (fun hall => ?_)
  · obtain ⟨c, hm, hl⟩ := List.mem_flatMap.1 hl
    have hphrases := (forall_synopsisPhrases_iff .ansi ReturnAsSeen).2 hr c hm
    exact Command.forall_lines Text.unitwise_returnAsSeen ansi_tidy (hclean c hm) hphrases n l hl
  · refine (forall_synopsisPhrases_iff .ansi ReturnAsSeen).1 ?_
    intro c hm
    refine Command.forall_phrases Text.unitwise_returnAsSeen ansi_tidy (hclean c hm) ?_
    intro l hl
    exact hall l (List.mem_flatMap.2 ⟨c, hm, hl⟩)

end Synopsis

/-! ## Sections -/

/-- The carriage returns at the ends of what is filled into a synopsis are as they are seen. -/
def returnsSeen (name : Text) (contents : List Token) : Prop :=
  ∀ x ∈ synopsisPhrases .ansi name contents, ReturnAsSeen x

/-- What is filled into a synopsis is blank if it looks blank. -/
def blanksSeen (name : Text) (contents : List Token) : Prop :=
  ∀ x ∈ synopsisPhrases .ansi name contents, BlankAsSeen x

instance (name : Text) (contents : List Token) : Decidable (returnsSeen name contents) :=
  inferInstanceAs (Decidable (∀ x ∈ synopsisPhrases .ansi name contents, ReturnAsSeen x))

instance (name : Text) (contents : List Token) : Decidable (blanksSeen name contents) :=
  inferInstanceAs (Decidable (∀ x ∈ synopsisPhrases .ansi name contents, BlankAsSeen x))

theorem chunk_settles {c : Chunk}
    (h : c.All (Token.Inline Clean) fun name contents =>
      madeOf Clean name ∧ ∀ t ∈ contents, t.Unit Clean) :
    Settles (fun s n => c.lines s n) (c.All Token.WordsShow returnsSeen)
      (c.All (fun _ => True) blanksSeen) := by
  cases c with
  | prose ts => exact (prose_settles h).congr Iff.rfl fun _ => by simp [Chunk.All]
  | synopsis name contents => exact synopsis_lines_settles h.1 h.2

/-- A section stays in place exactly if its running text and its synopses do. -/
theorem section_settles {ts : List Token} (h : ∀ t ∈ ts, t.Part Clean) :
    Settles (fun s n => sectionLines s ts n []) (∀ t ∈ ts, t.PartAll Token.WordsShow returnsSeen)
      (∀ t ∈ ts, t.PartAll (fun _ => True) blanksSeen) := by
  have hparts : ∀ t ∈ ts, t.PartAll (Token.Inline Clean) fun name contents =>
      madeOf Clean name ∧ ∀ t ∈ contents, t.Unit Clean := by
    intro t ht
    have hpart := h t ht
    cases t <;> exact hpart
  have hclean := (forall_chunks_iff _ _ [] ts).2 ⟨by simp, hparts⟩
  have hlines : (fun s n => sectionLines s ts n []) = fun s n =>
      indentLines sectionIndent ((chunks [] ts).flatMap (Chunk.lines s n)) := by
    funext s n
    exact sectionLines_eq h s n []
  rw [hlines]
  refine ((Settles.flatMap fun c hc => chunk_settles (hclean c hc)).indent sectionIndent).congr ?_
    fun _ => ?_
  · simpa using forall_chunks_iff Token.WordsShow returnsSeen [] ts
  · simpa using forall_chunks_iff (fun _ => True) blanksSeen [] ts

end TextPager.Man
