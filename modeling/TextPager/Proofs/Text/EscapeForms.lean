import TextPager.Proofs.Text.KeptEscapes
import TextPager.Proofs.Text.LineWidths

/-!
# The five forms of escape sequences

The segments of a text come from an automaton that looks at one character at a time. What a terminal
knows are forms: a control sequence has a body and a final character, an operating system command has
a body and a bell or a string terminator, the selection of a character set takes one character, and
any other escape sequence is one character long. `EscapeSequence` lists these forms as they are
written. `Scan.Ends` says of a state what the automaton still reads until it is back on the ground;
from the state just after an escape character these are exactly the forms.

So a text is `Terminated` if each of its escape sequences has one of the forms, and that is when it
can be read apart from whatever follows it.

**Results.**
* `Scan.ends_control_iff`, `Scan.ends_command_iff`, `Scan.ends_opened_iff`: what each state of the
  scan still reads.
* `terminated_iff`: a text is terminated exactly if its sequences have one of the forms.
* `segments_append_iff`: exactly then it is read apart from every text after it.
* `segments_lossless`: segments lose nothing, and widths of texts read apart add up.
-/
namespace TextPager

/-- The characters that end a control sequence. -/
def isFinal (c : Char) : Prop := '@' ≤ c ∧ c ≤ '~'

instance : DecidablePred isFinal := fun c => inferInstanceAs (Decidable ('@' ≤ c ∧ c ≤ '~'))

/-- The string terminator, which closes an operating system command as a bell does. -/
def stringTerminator : Text := [esc, '\\']

/-- What follows the bracket of an operating system command: a body, and the first bell or string
terminator there is. -/
def CommandTail (t : Text) : Prop :=
  ∃ body close, t = body ++ close ∧ (close = [bell] ∨ close = stringTerminator) ∧
    bell ∉ body ∧ ¬stringTerminator <:+: body

/-- A complete escape sequence. -/
inductive EscapeSequence : Text → Prop where
  | control {body : Text} {final : Char} (hbody : ∀ c ∈ body, ¬isFinal c) (hfinal : isFinal final) :
    EscapeSequence (esc :: '[' :: (body ++ [final]))
  | command {tail : Text} (htail : CommandTail tail) : EscapeSequence (esc :: ']' :: tail)
  | charset {paren c : Char} (hparen : paren = '(' ∨ paren = ')') : EscapeSequence [esc, paren, c]
  | single {c : Char} (hc : c ∉ ['[', ']', '(', ')']) : EscapeSequence [esc, c]

/-! ## What a state still reads -/

namespace Scan

/-- The scan is back on the ground after the text, and not before. -/
def Ends : Scan → Text → Prop
  | s, [] => s = .ground
  | s, c :: t => s ≠ .ground ∧ (s.next c).Ends t

theorem ends_ground_iff {t : Text} : ground.Ends t ↔ t = [] := by
  cases t <;> simp [Ends]

theorem ends_charset_iff {t : Text} : charset.Ends t ↔ ∃ c, t = [c] := by
  cases t with
  | nil => simp [Ends]
  | cons c t => simp [Ends, next, ends_ground_iff]

/-- A control sequence goes on to its first final character. -/
theorem ends_control_iff {t : Text} :
    control.Ends t ↔
      ∃ body final, t = body ++ [final] ∧ (∀ c ∈ body, ¬isFinal c) ∧ isFinal final := by
  induction t with
  | nil => simp [Ends]
  | cons c t ih =>
    have hnext : control.Ends (c :: t) ↔ (control.next c).Ends t := by simp [Ends]
    rw [hnext]
    by_cases hc : isFinal c
    · have hground : control.next c = .ground := if_pos hc
      rw [hground, ends_ground_iff]
      constructor
      · rintro rfl
        exact ⟨[], c, rfl, by simp, hc⟩
      · rintro ⟨body, final, heq, hbody, -⟩
        cases body with
        | nil => exact (List.cons.inj heq).2
        | cons d body =>
          obtain ⟨rfl, -⟩ := List.cons.inj heq
          exact absurd hc (hbody c List.mem_cons_self)
    · have hcontrol : control.next c = .control := if_neg hc
      rw [hcontrol, ih]
      constructor
      · rintro ⟨body, final, rfl, hbody, hfinal⟩
        exact ⟨c :: body, final, rfl, List.forall_mem_cons.2 ⟨hc, hbody⟩, hfinal⟩
      · rintro ⟨body, final, heq, hbody, hfinal⟩
        cases body with
        | nil =>
          obtain ⟨rfl, -⟩ := List.cons.inj heq
          exact absurd hfinal hc
        | cons d body =>
          exact ⟨body, final, (List.cons.inj heq).2, (List.forall_mem_cons.1 hbody).2, hfinal⟩

end Scan

/-! ## Operating system commands -/

theorem commandTail_bell_iff {t : Text} : CommandTail (bell :: t) ↔ t = [] := by
  constructor
  · rintro ⟨body, close, heq, hclose, hbell, -⟩
    cases body with
    | nil =>
      rcases hclose with rfl | rfl
      · exact (List.cons.inj heq).2
      · exact absurd (List.cons.inj heq).1 (by decide)
    | cons d body =>
      obtain ⟨rfl, -⟩ := List.cons.inj heq
      exact absurd List.mem_cons_self hbell
  · rintro rfl
    exact ⟨[], [bell], rfl, .inl rfl, by simp, by simp [stringTerminator]⟩

/-- A character that is no bell is passed over, unless it begins a string terminator. -/
theorem commandTail_cons_iff {c : Char} (hc : c ≠ bell) {t : Text} :
    CommandTail (c :: t) ↔
      if c = esc ∧ t.head? = some '\\' then t = ['\\'] else CommandTail t := by
  constructor
  · rintro ⟨body, close, heq, hclose, hbell, hterm⟩
    cases body with
    | nil =>
      rcases hclose with rfl | rfl
      · exact absurd (List.cons.inj heq).1 hc
      · obtain ⟨rfl, rfl⟩ := List.cons.inj heq
        simp
    | cons d body =>
      rw [List.cons_append] at heq
      obtain ⟨rfl, rfl⟩ := List.cons.inj heq
      have hrest : bell ∉ body ∧ ¬stringTerminator <:+: body :=
        ⟨fun h => hbell (List.mem_cons_of_mem _ h), fun h => hterm (h.trans (List.infix_cons_iff.2
          (.inr List.infix_rfl)))⟩
      have hnot : ¬(c = esc ∧ (body ++ close).head? = some '\\') := by
        rintro ⟨rfl, hhead⟩
        cases body with
        | nil => rcases hclose with rfl | rfl <;> exact absurd hhead (by decide)
        | cons e body =>
          obtain rfl : e = '\\' := by simpa using hhead
          exact hterm ⟨[], body, rfl⟩
      rw [if_neg hnot]
      exact ⟨body, close, rfl, hclose, hrest⟩
  · split
    · rename_i hbegins
      rintro rfl
      obtain ⟨rfl, -⟩ := hbegins
      exact ⟨[], stringTerminator, rfl, .inr rfl, by simp, by simp [stringTerminator]⟩
    · rename_i hnot
      rintro ⟨body, close, rfl, hclose, hbell, hterm⟩
      refine ⟨c :: body, close, rfl, hclose, by simp [Ne.symm hc, hbell], fun h => ?_⟩
      rcases List.infix_cons_iff.1 h with hprefix | h
      · obtain ⟨rest, hrest⟩ := hprefix
        obtain ⟨rfl, rfl⟩ := List.cons.inj hrest
        exact hnot ⟨rfl, rfl⟩
      · exact hterm h

namespace Scan

/-- An operating system command goes on to its first bell or string terminator. After an escape
character the terminator may have begun. -/
theorem ends_command_iff (afterEsc : Bool) (t : Text) :
    (command afterEsc).Ends t ↔ CommandTail ((if afterEsc then [esc] else []) ++ t) := by
  induction t generalizing afterEsc with
  | nil =>
    have hnil : ¬CommandTail [] := by
      rintro ⟨body, close, heq, rfl | rfl, -⟩ <;> simp [stringTerminator] at heq
    cases afterEsc with
    | false => simpa [Ends] using hnil
    | true => simpa [Ends, commandTail_cons_iff (show esc ≠ bell by decide)] using hnil
  | cons c t ih =>
    -- Outside a terminator that has begun, an escape character may begin one.
    have hplain : c ≠ bell →
        ((command (c == esc)).Ends t ↔ CommandTail (c :: t)) := by
      intro hc
      rw [ih]
      by_cases he : c = esc
      · simp [he]
      · simp [he, commandTail_cons_iff hc]
    rcases eq_or_ne c bell with rfl | hc
    · cases afterEsc <;>
        simp [Ends, next, ends_ground_iff, commandTail_bell_iff,
          commandTail_cons_iff (show esc ≠ bell by decide), show bell ≠ '\\' by decide]
    · cases afterEsc with
      | false => simpa [Ends, next, hc] using hplain hc
      | true =>
        by_cases hslash : c = '\\'
        · simp [Ends, next, ends_ground_iff, hslash,
            commandTail_cons_iff (show esc ≠ bell by decide)]
        · simpa [Ends, next, hc, hslash,
            commandTail_cons_iff (show esc ≠ bell by decide)] using hplain hc

/-! ## Whole sequences -/

/-- What follows the escape character of a sequence, form by form. -/
theorem ends_opened_iff {t : Text} : opened.Ends t ↔ EscapeSequence (esc :: t) := by
  constructor
  · intro h
    cases t with
    | nil => cases h
    | cons c t =>
      obtain ⟨-, h⟩ := h
      rw [next] at h
      split at h
      · rename_i hc
        obtain ⟨body, final, rfl, hbody, hfinal⟩ := ends_control_iff.1 h
        exact hc ▸ .control hbody hfinal
      · split at h
        · rename_i hc
          exact hc ▸ .command ((ends_command_iff false t).1 h)
        · split at h
          · rename_i hc
            obtain ⟨d, rfl⟩ := ends_charset_iff.1 h
            exact .charset hc
          · obtain rfl := ends_ground_iff.1 h
            exact .single (by simp_all)
  · intro h
    generalize hs : esc :: t = s at h
    cases h with
    | control hbody hfinal =>
      obtain rfl := (List.cons.inj hs).2
      exact ⟨by decide, ends_control_iff.2 ⟨_, _, rfl, hbody, hfinal⟩⟩
    | command htail =>
      obtain rfl := (List.cons.inj hs).2
      exact ⟨by decide, (ends_command_iff false _).2 htail⟩
    | charset hparen =>
      obtain rfl := (List.cons.inj hs).2
      rcases hparen with rfl | rfl <;> exact ⟨by decide, ends_charset_iff.2 ⟨_, rfl⟩⟩
    | single hc =>
      obtain rfl := (List.cons.inj hs).2
      simp only [List.mem_cons, List.not_mem_nil, or_false, not_or] at hc
      refine ⟨by decide, ?_⟩
      simp [next, hc, Ends]

/-- From any state: the scan comes back to the ground exactly if what is left of the sequence it
stands in ends it, and the sequences after it have one of the forms. -/
theorem run_eq_ground_iff (s : Scan) (t : Text) :
    s.run t = .ground ↔ s.Ends (Text.segmentsFrom s t).1 ∧
      ∀ e ∈ (Text.segmentsFrom s t).2.filterMap Segment.escape?, EscapeSequence e := by
  induction t generalizing s with
  | nil => simp [run, Text.segmentsFrom, Ends]
  | cons c t ih =>
    have hrun : s.run (c :: t) = (s.next c).run t := rfl
    rw [hrun, ih, Text.segmentsFrom]
    by_cases hs : s = .ground
    · subst hs
      by_cases hn : ground.next c = .ground
      · have hnil := (Text.ofSegments_segmentsFrom .ground t).2 rfl
        simp [hn, hnil, Ends, Segment.escape?]
      · have hc : c = esc := by
          by_contra hc
          exact hn (next_ground hc)
        subst hc
        have hopened : ground.next esc = .opened := rfl
        simp [hopened, Ends, Segment.escape?, ← ends_opened_iff]
    · simp [hs, Ends]

end Scan

namespace Text

/-- A text is terminated exactly if each of its escape sequences has one of the forms. -/
theorem terminated_iff {t : Text} : t.Terminated ↔ ∀ e ∈ t.escapes, EscapeSequence e := by
  rw [Terminated, Scan.run_eq_ground_iff, (ofSegments_segmentsFrom .ground t).2 rfl]
  exact and_iff_right rfl

/-- A text can be read apart from every text after it exactly if its escape sequences are complete. -/
theorem segments_append_iff {a : Text} :
    (∀ b, (a ++ b).segments = a.segments ++ b.segments) ↔ ∀ e ∈ a.escapes, EscapeSequence e := by
  rw [← terminated_iff]
  refine ⟨fun h => ?_, segments_append⟩
  have hlegible := (legible_segments (a ++ ['x'])).complete
  rw [h] at hlegible
  have hcomplete := (List.pairwise_append.1 hlegible).2.2
  rw [← ofSegments_segments a]
  exact terminated_ofSegments fun g hg => hcomplete g hg (.char 'x') List.mem_cons_self

/-- **Segments lose nothing and are read apart.** The segments of every text spell it; its visible
characters are not the escape character, and its escape sequences begin with it. If the escape
sequences of a text are complete, it and any text after it have the segments of the one and then
those of the other, so their widths add up, and filling the text with spaces makes it as wide as was
asked for, or leaves it wider. -/
theorem segments_lossless (t : Text) {a : Text} (ha : ∀ e ∈ a.escapes, EscapeSequence e) (b : Text)
    (n : Nat) :
    (ofSegments t.segments = t ∧ (∀ c, .char c ∈ t.segments → c ≠ esc) ∧
        ∀ e, .escape e ∈ t.segments → e ≠ [] ∧ e.head? = some esc) ∧
      (a ++ b).segments = a.segments ++ b.segments ∧ (a ++ b).width = a.width + b.width ∧
      (a.pad n).width = max a.width n := by
  have hterm : a.Terminated := terminated_iff.2 ha
  refine ⟨⟨ofSegments_segments t, fun c => segments_char, fun e he => ?_⟩,
    segments_append_iff.2 ha b, width_append hterm b, width_pad hterm n⟩
  have hhead := segments_escape he
  refine ⟨?_, hhead⟩
  rintro rfl
  cases hhead

/-- Sequences of all forms, between characters of several bytes. -/
def allForms : Text :=
  "é\x1b[1;31m日\x1b]8;;u\x1b\\\x1b]0;t\x07\x1b(Bß\x1b)0\x1bM".toList

/-- What follows would have gone on any of the sequences, and breaks off in one. -/
theorem segments_lossless_allForms :
    (∀ e ∈ allForms.escapes, EscapeSequence e) ∧
      ofSegments (segments "m\x07é\x1b[".toList) = "m\x07é\x1b[".toList ∧
      (allForms ++ "m\x07é\x1b[".toList).segments =
        allForms.segments ++ segments "m\x07é\x1b[".toList ∧
      (allForms ++ "m\x07é\x1b[".toList).width = 6 ∧ (allForms.pad 5).width = 5 := by
  have hterm : Scan.ground.run allForms = .ground := by decide
  have ha : ∀ e ∈ allForms.escapes, EscapeSequence e := terminated_iff.1 hterm
  obtain ⟨⟨hspell, -⟩, hsegments, hwidth, hpad⟩ :=
    segments_lossless "m\x07é\x1b[".toList ha "m\x07é\x1b[".toList 5
  exact ⟨ha, hspell, hsegments, hwidth, hpad⟩

end Text

end TextPager
