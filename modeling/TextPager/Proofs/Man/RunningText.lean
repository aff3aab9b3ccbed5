import TextPager.Proofs.Man.StyledLines

/-!
# Running text

Texts, unknown macros, fonts and options stand in running text as phrases: a paragraph of such
tokens is their phrases joined and filled, and so is a section without synopses. If no escape
characters stand in the tokens, the phrases have those of the styles only, whose sequences are
complete and hold no white space, so the words of the text are told apart as they are without
styles.

**Results.**
* `phrases_of_running`, `sectionLines_of_running`: running text is its phrases, filled together.
* `phrase_neat`, `prose_neat`: a phrase holds no white space inside an escape sequence.
* `Token.layout_of_flowing`: a paragraph of running text is filled from it, beside its tags.
-/
namespace TextPager.Man

instance (P : Char → Prop) [DecidablePred P] : DecidablePred (madeOf P) := fun t =>
  List.decidableBAll P t

namespace Token

/-- A token of running text, its strings made of a class of characters. -/
def Running (P : Char → Prop) : Token → Prop
  | text l | unknown l | font _ l => madeOf P l
  | option name argument => madeOf P name ∧ ∀ a ∈ argument, madeOf P a
  | _ => False

instance (P : Char → Prop) [DecidablePred P] : DecidablePred (Running P)
  | text l | unknown l | font _ l => inferInstanceAs (Decidable (madeOf P l))
  | option name argument =>
    inferInstanceAs (Decidable (madeOf P name ∧ ∀ a ∈ argument, madeOf P a))
  | title _ | heading .. | paragraph _ | indented .. | tagged .. | verbatim _ | shiftIn _
  | shiftOut _ | synopsis .. | link .. => inferInstanceAs (Decidable False)

variable {P Q : Char → Prop} {t : Token}

theorem Running.unit (h : t.Running P) : t.Unit P := by
  cases t <;> first | exact h | cases h

theorem Running.isSynopsis (h : t.Running P) : t.isSynopsis = false := by
  cases t <;> first | rfl | cases h

theorem Running.mono (hPQ : ∀ c, P c → Q c) (h : t.Running P) : t.Running Q := by
  cases t with
  | text | unknown | font => exact fun c hc => hPQ c (h c hc)
  | option => exact ⟨fun c hc => hPQ c (h.1 c hc), fun a ha c hc => hPQ c (h.2 a ha c hc)⟩
  | _ => cases h

end Token

section

variable {P : Char → Prop} {ts : List Token}

theorem phrases_of_running (h : ∀ t ∈ ts, t.Running P) (s : Styles) (width : Nat) :
    phrases s ts width = ts.map (Token.phrase s) :=
  phrases_of_unit (fun t ht => ⟨(h t ht).unit, (h t ht).isSynopsis⟩) s width

/-- The body of a section of running text is filled as one paragraph. -/
theorem sectionLines_of_running (h : ∀ t ∈ ts, t.Running P) (s : Styles) (width : Nat)
    (before : List Token) :
    sectionLines s ts width (before.map (Token.phrase s)) =
      indentLines sectionIndent ((prose s (before ++ ts)).wrap width) := by
  induction ts generalizing before with
  | nil => simp [sectionLines, prose]
  | cons t ts ih =>
    obtain ⟨ht, hts⟩ := List.forall_mem_cons.1 h
    have hnext := ih hts (before ++ [t])
    rw [List.map_append, List.map_singleton, List.append_assoc, List.singleton_append] at hnext
    rw [sectionLines, ht.isSynopsis, inText_layout_unit ht.unit ht.isSynopsis, ← hnext]
    rfl

end

/-! ## Escape sequences in running text -/

section Neat

variable {s : Styles} {t : Text}

theorem neat_of_madeOf (h : madeOf (· ≠ esc) t) : t.Neat :=
  Text.neat_of_not_mem fun he => h esc he rfl

theorem apply_neat (hs : s.Tidy) (e : Emphasis) (h : t.Neat) : (s.apply e t).Neat := by
  have hstyled : ∀ start : Text, start.Neat → (s.styled start t).Neat := by
    intro start hstart
    unfold Styles.styled
    split
    · exact h
    · exact (hstart.append h).append hs.normal.neat
  cases e with
  | bold => exact hstyled _ hs.bold.neat
  | underline => exact hstyled _ hs.underline.neat
  | roman => exact h

theorem alternate_neat (hs : s.Tidy) {ts : List Text} (h : ∀ t ∈ ts, t.Neat) (even odd : Emphasis) :
    ∀ t ∈ Font.alternate s even odd ts, t.Neat := by
  induction ts generalizing even odd with
  | nil => simp [Font.alternate]
  | cons t ts ih =>
    obtain ⟨ht, hts⟩ := List.forall_mem_cons.1 h
    exact List.forall_mem_cons.2 ⟨apply_neat hs even ht, ih hts odd even⟩

theorem render_neat (hs : s.Tidy) (f : Font) (h : madeOf (· ≠ esc) t) : (f.render s t).Neat := by
  unfold Font.render
  split
  · refine Text.neat_joinWords (alternate_neat hs ?_ _ _)
    exact fun p hp => neat_of_madeOf fun c hc => h c (Text.mem_of_mem_pieces hp hc)
  · exact apply_neat hs _ (neat_of_madeOf h)

theorem optionText_neat (hs : s.Tidy) {name : Text} {argument : Option Text}
    (hn : madeOf (· ≠ esc) name) (ha : ∀ a ∈ argument, madeOf (· ≠ esc) a) :
    (optionText s name argument).Neat := by
  have hopen : Text.Neat ['['] := by decide
  have hclose : Text.Neat [']'] := by decide
  have hspace : Text.Neat [' '] := by decide
  have hname := hopen.append (apply_neat hs .bold (neat_of_madeOf hn))
  cases argument with
  | none => exact hname.append hclose
  | some a =>
    have hargument := apply_neat hs .underline (neat_of_madeOf (ha a rfl))
    exact ((hname.append hspace).append hargument).append hclose

theorem phrase_neat (hs : s.Tidy) {t : Token} (h : t.Running (· ≠ esc)) : (t.phrase s).Neat := by
  cases t with
  | text | unknown => exact neat_of_madeOf h
  | font f => exact render_neat hs f h
  | option => exact optionText_neat hs h.1 h.2
  | _ => cases h

theorem prose_neat (hs : s.Tidy) {ts : List Token} (h : ∀ t ∈ ts, t.Running (· ≠ esc)) :
    (prose s ts).Neat :=
  Text.neat_joinWords (List.forall_mem_map.2 fun t ht => phrase_neat hs (h t ht))

end Neat

/-! ## Paragraphs of running text -/

namespace Token

/-- A shift, or a paragraph of running text without escapes and newlines. -/
def Flowing : Token → Prop
  | shiftIn _ | shiftOut _ => True
  | paragraph cs => ∀ t ∈ cs, t.Running Clean
  | indented tag _ cs => (∀ a ∈ tag, madeOf Clean a) ∧ ∀ t ∈ cs, t.Running Clean
  | tagged tags _ cs => (∀ t ∈ tags, t.Running Clean) ∧ ∀ t ∈ cs, t.Running Clean
  | _ => False

instance : DecidablePred Flowing
  | shiftIn _ | shiftOut _ => inferInstanceAs (Decidable True)
  | paragraph cs => inferInstanceAs (Decidable (∀ t ∈ cs, t.Running Clean))
  | indented tag _ cs =>
    inferInstanceAs (Decidable ((∀ a ∈ tag, madeOf Clean a) ∧ ∀ t ∈ cs, t.Running Clean))
  | tagged tags _ cs =>
    inferInstanceAs (Decidable ((∀ t ∈ tags, t.Running Clean) ∧ ∀ t ∈ cs, t.Running Clean))
  | text _ | unknown _ | title _ | heading .. | verbatim _ | synopsis .. | option .. | link ..
  | font .. => inferInstanceAs (Decidable False)

/-- The tags of a paragraph. -/
def tags (s : Styles) : Token → List Text
  | indented tag _ _ => tag.toList
  | tagged tags _ _ => tags.map (phrase s)
  | _ => []

/-- The running text a paragraph is filled from. -/
def body (s : Styles) : Token → Text
  | paragraph cs | indented _ _ cs | tagged _ _ cs => prose s cs
  | _ => []

variable {s : Styles} {t : Token}

/-- A paragraph is filled from its body beside its tags, a shift as a paragraph without either. -/
theorem layout_of_flowing (h : t.Flowing) (s : Styles) (width indent : Nat) :
    t.layout s width indent =
      paragraphLines (t.tags s) (t.body s) width (t.indentAfter indent) := by
  cases t with
  | shiftIn step => rw [layout_shiftIn]; rfl
  | shiftOut step => rw [layout_shiftOut]; rfl
  | paragraph cs => rw [layout, phrases_of_running h]; rfl
  | indented tag i cs => rw [layout, phrases_of_running h.2]; rfl
  | tagged tags i cs => rw [layout, phrases_of_running h.1, phrases_of_running h.2]; rfl
  | _ => cases h

theorem tags_flat (hs : s.Tidy) (h : t.Flowing) : ∀ tag ∈ t.tags s, tag.Flat := by
  cases t with
  | indented tag i cs =>
    intro a ha
    exact (shows_self (h.1 a (Option.mem_toList.1 ha))).flat
  | tagged tags i cs =>
    exact List.forall_mem_map.2 fun u hu => (phrase_shows hs (h.1 u hu).unit).flat
  | _ => simp [tags]

theorem body_neat (hs : s.Tidy) (h : t.Flowing) : (t.body s).Neat := by
  have hprose : ∀ {cs : List Token}, (∀ u ∈ cs, u.Running Clean) → (prose s cs).Neat :=
    fun hcs => prose_neat hs fun u hu => (hcs u hu).mono fun _ hc => hc.1
  cases t with
  | paragraph cs => exact hprose h
  | indented tag i cs => exact hprose h.2
  | tagged tags i cs => exact hprose h.2
  | _ => exact Text.neat_nil

theorem title?_of_flowing (h : t.Flowing) : t.title? = none := by
  cases t <;> first | rfl | cases h

end Token

end TextPager.Man
