import TextPager.Man.Layout
import TextPager.Proofs.Man.Grammar

/-!
# The trees of a page

The grammar `Token.Built` describes a token from the top. Layout meets tokens at every depth and
relies there on what may stand inside which: running text inside paragraphs, examples and links,
synopses inside sections, options inside synopses. Here the grammar is read off every token of the
tree: `Token.Holds` says what stands directly inside a token, and `Token.strings` lists the strings
that a token carries itself.

**Results.**
* `forall_family_sound`: at any depth of a built token, tokens hold what they may, and their strings
  are of the class.
* `Holds.inside`: titles and shifts stand at the top only, and options there or inside a synopsis.
* `tokens_wellFormed`: all of this in every page, and no string holds a newline.
-/
namespace TextPager.Man

namespace Token

/-- A text, an unknown macro or a font. -/
def isRunning : Token → Bool
  | text _ | unknown _ | font .. => true
  | _ => false

def isOption : Token → Bool
  | option .. => true
  | _ => false

/-- A title or a shift of the margin. -/
def isDirective : Token → Bool
  | title _ | shiftIn _ | shiftOut _ => true
  | _ => false

/-- A command without units, as a synopsis holds it: its units stand after it. -/
def isBareSynopsis : Token → Bool
  | synopsis _ [] => true
  | _ => false

/-- What may stand directly inside a token. -/
def Holds : Token → Prop
  | paragraph cs | indented _ _ cs | verbatim cs | link _ _ cs _ => ∀ c ∈ cs, c.isRunning
  | tagged tags _ cs => tags ≠ [] ∧ (∀ c ∈ tags, c.isRunning) ∧ ∀ c ∈ cs, c.isRunning
  | heading _ _ cs => ∀ c ∈ cs, c.isRunning ∨ c.isSynopsis
  | synopsis _ cs => ∀ c ∈ cs, c.isRunning ∨ c.isOption ∨ c.isBareSynopsis
  | text _ | unknown _ | title _ | shiftIn _ | shiftOut _ | option .. | font .. => True

/-- The strings of a token, without those of the tokens inside it. -/
def strings : Token → List Text
  | text l | unknown l | font _ l => [l]
  | title t => [t.title, t.chapter, t.footerMiddle, t.footerInside, t.headerMiddle]
  | heading _ h _ => [h]
  | indented tag _ _ => tag.toList
  | synopsis command _ => [command]
  | option name argument => name :: argument.toList
  | link _ address _ punctuation => [address, punctuation]
  | paragraph _ | tagged .. | verbatim _ | shiftIn _ | shiftOut _ => []

/-- A token holds what it may, and its strings are made of a class of characters. -/
structure Sound (P : Char → Prop) (t : Token) : Prop where
  holds : t.Holds
  strings : ∀ s ∈ t.strings, madeOf P s

variable {P : Char → Prop} {t : Token}

theorem isRunning_of_inline (h : t.Inline P) : t.isRunning = true := by
  cases t <;> first | rfl | cases h

theorem Unit.kinds (h : t.Unit P) :
    t.isRunning = true ∨ t.isOption = true ∨ t.isBareSynopsis = true := by
  cases t with
  | option => exact .inr (.inl rfl)
  | synopsis command cs =>
    obtain ⟨-, rfl⟩ := h
    exact .inr (.inr rfl)
  | _ => exact .inl (isRunning_of_inline (P := P) h)

theorem Part.kinds (h : t.Part P) : t.isRunning = true ∨ t.isSynopsis = true := by
  cases t with
  | synopsis => exact .inr rfl
  | _ => exact .inl (isRunning_of_inline (P := P) h)

/-! ## Down the tree -/

theorem forall_family_iff {Q : Token → Prop} :
    (∀ u ∈ t.family, Q u) ↔ Q t ∧ ∀ u ∈ families t.children, Q u := by
  rw [t.family_eq, List.forall_mem_cons]

end Token

theorem forall_families_iff {Q : Token → Prop} {ts : List Token} :
    (∀ u ∈ families ts, Q u) ↔ ∀ t ∈ ts, ∀ u ∈ t.family, Q u := by
  induction ts with
  | nil => simp
  | cons t ts ih => rw [families_cons, List.forall_mem_append, List.forall_mem_cons, ih]

namespace Token

variable {P : Char → Prop} {t : Token}

theorem forall_family_inline (h : t.Inline P) : ∀ u ∈ t.family, u.Sound P := by
  rw [forall_family_iff]
  cases t with
  | text l | unknown l | font f l =>
    exact ⟨⟨trivial, List.forall_mem_singleton.2 h⟩, by simp [children]⟩
  | _ => cases h

theorem forall_family_unit (h : t.Unit P) : ∀ u ∈ t.family, u.Sound P := by
  cases t with
  | option name argument =>
    obtain ⟨hn, ha⟩ := h
    rw [forall_family_iff]
    refine ⟨⟨trivial, List.forall_mem_cons.2 ⟨hn, fun a ha' => ha a ?_⟩⟩, by simp [children]⟩
    exact Option.mem_toList.1 ha'
  | synopsis command cs =>
    obtain ⟨hc, rfl⟩ := h
    rw [forall_family_iff]
    exact ⟨⟨by simp [Holds], List.forall_mem_singleton.2 hc⟩, by simp [children]⟩
  | _ => exact forall_family_inline (P := P) h

/-- A synopsis, in a section or on its own. -/
theorem forall_family_synopsis {command : Text} {cs : List Token} (hc : madeOf P command)
    (hcs : ∀ c ∈ cs, c.Unit P) : ∀ u ∈ (synopsis command cs).family, u.Sound P := by
  rw [forall_family_iff, forall_families_iff]
  exact ⟨⟨fun c h => (hcs c h).kinds, List.forall_mem_singleton.2 hc⟩,
    fun c h => forall_family_unit (hcs c h)⟩

theorem forall_family_part (h : t.Part P) : ∀ u ∈ t.family, u.Sound P := by
  cases t with
  | synopsis command cs => exact forall_family_synopsis h.1 h.2
  | _ => exact forall_family_inline (P := P) h

theorem forall_families_inline {cs : List Token} (h : ∀ c ∈ cs, c.Inline P) :
    (∀ c ∈ cs, c.isRunning = true) ∧ ∀ u ∈ families cs, u.Sound P :=
  ⟨fun c hc => isRunning_of_inline (h c hc),
    forall_families_iff.2 fun c hc => forall_family_inline (h c hc)⟩

/-- At any depth of a built token, tokens hold what they may, and their strings are of the class. -/
theorem forall_family_sound (h : t.Built P) : ∀ u ∈ t.family, u.Sound P := by
  cases t with
  | text l | unknown l | font f l => exact forall_family_inline (P := P) h
  | option name argument => exact forall_family_unit h
  | synopsis command cs => exact forall_family_synopsis h.1 h.2
  | title t =>
    rw [forall_family_iff]
    exact ⟨⟨trivial, by simpa [strings, Built] using h⟩, by simp [children]⟩
  | shiftIn n | shiftOut n =>
    rw [forall_family_iff]
    exact ⟨⟨trivial, by simp [strings]⟩, by simp [children]⟩
  | heading r heading cs =>
    rw [forall_family_iff, children, forall_families_iff]
    exact ⟨⟨fun c hc => (h.2 c hc).kinds, List.forall_mem_singleton.2 h.1⟩,
      fun c hc => forall_family_part (h.2 c hc)⟩
  | paragraph cs | verbatim cs =>
    obtain ⟨h1, h2⟩ := forall_families_inline h
    exact forall_family_iff.2 ⟨⟨h1, by simp [strings]⟩, h2⟩
  | indented tag i cs =>
    obtain ⟨htag, hcs⟩ := h
    obtain ⟨h1, h2⟩ := forall_families_inline hcs
    exact forall_family_iff.2 ⟨⟨h1, fun s hs => htag s (Option.mem_toList.1 hs)⟩, h2⟩
  | tagged tags i cs =>
    obtain ⟨hne, htags, hcs⟩ := h
    obtain ⟨h1, h2⟩ := forall_families_inline htags
    obtain ⟨h3, h4⟩ := forall_families_inline hcs
    refine forall_family_iff.2 ⟨⟨⟨hne, h1, h3⟩, by simp [strings]⟩, ?_⟩
    rw [children, families_append, List.forall_mem_append]
    exact ⟨h2, h4⟩
  | link k address cs punctuation =>
    obtain ⟨ha, hcs, hp⟩ := h
    obtain ⟨h1, h2⟩ := forall_families_inline hcs
    exact forall_family_iff.2 ⟨⟨h1, by simpa [strings] using ⟨ha, hp⟩⟩, h2⟩

/-! ## Well-formed trees -/

/-- A token that stands in running text may stand inside any token. -/
theorem isRunning_inside {c : Token} (h : c.isRunning = true) :
    c.isDirective = false ∧ (c.isOption = true → t.isSynopsis = true) := by
  cases c <;> simp_all [isRunning, isDirective, isOption]

theorem isSynopsis_inside {c : Token} (h : c.isSynopsis = true) :
    c.isDirective = false ∧ (c.isOption = true → t.isSynopsis = true) := by
  cases c <;> simp_all [isSynopsis, isDirective, isOption]

/-- Titles and shifts stand at the top only, and options there or inside a synopsis. -/
theorem Holds.inside (h : t.Holds) :
    ∀ c ∈ t.children, c.isDirective = false ∧ (c.isOption = true → t.isSynopsis = true) := by
  intro c hc
  cases t with
  | paragraph cs | indented _ _ cs | verbatim cs | link _ _ cs _ =>
    exact isRunning_inside (h c hc)
  | tagged tags _ cs =>
    rcases List.mem_append.1 hc with hc | hc
    · exact isRunning_inside (h.2.1 c hc)
    · exact isRunning_inside (h.2.2 c hc)
  | heading _ _ cs => exact (h c hc).elim isRunning_inside isSynopsis_inside
  | synopsis _ cs =>
    refine ⟨?_, fun _ => rfl⟩
    rcases h c hc with hc | hc | hc <;> cases c <;> first | rfl | cases hc
  | _ => cases hc

/-- A token holds what it may, and none of its strings holds a newline. -/
structure WellFormed (t : Token) : Prop where
  holds : t.Holds
  inside : ∀ c ∈ t.children, c.isDirective = false ∧ (c.isOption = true → t.isSynopsis = true)
  strings : ∀ s ∈ t.strings, '\n' ∉ s

end Token

/-- **Every page is read into well-formed trees.** At any depth, paragraphs, examples and links hold
running text only; a tagged paragraph has a tag, and its tags and its contents are running text; a
section holds running text and synopses; a synopsis holds running text, options and further
commands, which hold nothing; no title, shift or other option stands inside a token; and no string
holds a newline. -/
theorem tokens_wellFormed (page : Text) : ∀ t ∈ families (tokens page), t.WellFormed := by
  have hlines : ∀ line ∈ page.lines, madeOf (· ≠ '\n') line := fun line hl c hc =>
    (mem_lines hl hc).2
  have hbuilt := tokens_built (P := (· ≠ '\n')) (by decide) hlines
  refine forall_families_iff.2 ?_
  intro t ht u hu
  have hsound := Token.forall_family_sound (hbuilt t ht) u hu
  exact ⟨hsound.holds, hsound.holds.inside, fun s hs hn => hsound.strings s hs '\n' hn rfl⟩

/-- A section with a synopsis of two commands. -/
def twoCommandsPage : Text := ".SH SYNOPSIS\n.SY spam\n.OP -s n\n.SY eggs\nham\n.YS\n".toList

/-- The synopsis in the section holds an option, a further command and a text. -/
theorem tokens_wellFormed_twoCommandsPage :
    ∃ t ∈ families (tokens twoCommandsPage),
      t.isSynopsis = true ∧ t.children.length = 3 ∧ t.WellFormed := by
  have hsynopsis : ∃ t ∈ families (tokens twoCommandsPage),
      t.isSynopsis = true ∧ t.children.length = 3 := by decide +kernel
  obtain ⟨t, hmem, hkind, hchildren⟩ := hsynopsis
  exact ⟨t, hmem, hkind, hchildren, tokens_wellFormed twoCommandsPage t hmem⟩

end TextPager.Man
