import TextPager.Man.Block
import TextPager.Proofs.Text.Words

/-!
# Quoted arguments

Quoting puts an argument between double quotes and doubles each quote in it, so any text can be an
argument: an empty one, one with white space, one that begins or ends with quotes. Reading arguments
undoes it. A scan that has read a quoted argument stands behind its closing quote, which it tells
from a doubled one by the character after it, and white space then ends the argument.

**Results.**
* `argumentsFrom_quoteArgument`: a quoted argument is read up to its closing quote.
* `arguments_quoteArguments`: quoted arguments with white space between them are read back.
* `tokens_quoteArguments`: a title line with quoted arguments is the title that they make.
-/
namespace TextPager.Man

/-- Quoted arguments, with a gap after each but the last. -/
def quoteArguments (gap : Nat → Text) : List Text → Text
  | [] => []
  | [a] => quoteArgument a
  | a :: b :: rest =>
    quoteArgument a ++ gap 0 ++ quoteArguments (fun i => gap (i + 1)) (b :: rest)

/-! ## One argument -/

theorem isSpace_ne_quote {c : Char} (h : isSpace c = true) : c ≠ '"' := by
  rintro rfl
  exact absurd h (by decide)

/-- White space between arguments is passed over. -/
theorem argumentsFrom_between_append {gap : Text} (h : gap.isBlank = true) (rest : Text) :
    argumentsFrom .between (gap ++ rest) = argumentsFrom .between rest := by
  induction gap with
  | nil => rfl
  | cons c gap ih =>
    obtain ⟨hc, hgap⟩ := Bool.and_eq_true_iff.1 h
    rw [List.cons_append, argumentsFrom, if_neg (isSpace_ne_quote hc), if_pos hc, ih hgap]

/-- White space ends an argument. -/
theorem argumentsFrom_bare_append {gap : Text} (hne : gap ≠ []) (h : gap.isBlank = true)
    (a rest : Text) :
    argumentsFrom (.bare a) (gap ++ rest) = a :: argumentsFrom .between rest := by
  obtain ⟨c, gap, rfl⟩ := List.exists_cons_of_ne_nil hne
  obtain ⟨hc, hgap⟩ := Bool.and_eq_true_iff.1 h
  rw [List.cons_append, argumentsFrom, if_pos hc, argumentsFrom_between_append hgap]

/-- A quoted argument is read up to its closing quote, if no further quote follows that one. -/
theorem argumentsFrom_quoteArgument (a : Text) {rest : Text} (h : rest.head? ≠ some '"') :
    argumentsFrom .between (quoteArgument a ++ rest) = argumentsFrom (.bare a) rest := by
  have hread := argumentsFrom_quoted_append [] a rest h
  simpa [quoteArgument, argumentsFrom] using hread

/-! ## Many arguments -/

/-- Quoted arguments with white space between them are read back as they were. -/
theorem arguments_quoteArguments {gap : Nat → Text}
    (h : ∀ i, gap i ≠ [] ∧ (gap i).isBlank = true) (args : List Text) :
    arguments (quoteArguments gap args) = args := by
  induction args generalizing gap with
  | nil => rfl
  | cons a args ih =>
    cases args with
    | nil => exact arguments_quoted a
    | cons b rest =>
      obtain ⟨hne, hblank⟩ := h 0
      have hnext := ih fun i => h (i + 1)
      have hhead :
          (gap 0 ++ quoteArguments (fun i => gap (i + 1)) (b :: rest)).head? ≠ some '"' := by
        obtain ⟨c, t, hgap⟩ := List.exists_cons_of_ne_nil hne
        rw [hgap] at hblank ⊢
        intro hc
        exact isSpace_ne_quote (Bool.and_eq_true_iff.1 hblank).1 (Option.some.inj hc)
      rw [quoteArguments, List.append_assoc, arguments, argumentsFrom_quoteArgument a hhead,
        argumentsFrom_bare_append hne hblank, ← arguments, hnext]

/-! ## The title line -/

/-- A text without a newline is one line. -/
theorem lines_of_not_mem {t : Text} (hne : t ≠ []) (h : '\n' ∉ t) : t.lines = [t] := by
  simp [Text.lines, Text.piecesAt_of_not_mem h, hne]

/-- The line of a title is one token. -/
theorem readFrom_title {line : Text} (hc : isComment line = false) {args : List Text}
    (hr : Request.ofLine? line = some ⟨.title, args⟩) :
    readFrom none [line] = [.title (.ofArgs args)] := by
  simp [readFrom, readLines, readLine, hc, startLine, hr]

theorem request_titleLine (t : Text) :
    Request.ofLine? (".TH ".toList ++ t) = some ⟨.title, arguments t⟩ := by
  have hread : Request.ofLine? (".TH ".toList ++ t) = some ⟨.title, arguments ([' '] ++ t)⟩ := rfl
  have hargs : arguments ([' '] ++ t) = arguments t :=
    argumentsFrom_between_append (by decide) t
  rw [hread, hargs]

theorem newline_not_mem_quoteArgument {a : Text} (h : '\n' ∉ a) : '\n' ∉ quoteArgument a := by
  intro hn
  simp only [quoteArgument, List.mem_append, List.mem_singleton, List.mem_flatMap] at hn
  rcases hn with (hn | ⟨c, hc, hn⟩) | hn
  · exact absurd hn (by decide)
  · split at hn
    · exact absurd hn (by decide)
    · exact h (List.mem_singleton.1 hn ▸ hc)
  · exact absurd hn (by decide)

/-- Quoted arguments without newlines stand on one line, if there is none between them. -/
theorem newline_not_mem_quoteArguments {args : List Text} (h : ∀ a ∈ args, '\n' ∉ a)
    {gap : Nat → Text} (hgap : ∀ i, '\n' ∉ gap i) : '\n' ∉ quoteArguments gap args := by
  induction args generalizing gap with
  | nil => exact List.not_mem_nil
  | cons a args ih =>
    obtain ⟨ha, hargs⟩ := List.forall_mem_cons.1 h
    cases args with
    | nil => exact newline_not_mem_quoteArgument ha
    | cons b rest =>
      have hrest := ih hargs fun i => hgap (i + 1)
      intro hn
      rcases List.mem_append.1 hn with hn | hn
      · rcases List.mem_append.1 hn with hn | hn
        · exact newline_not_mem_quoteArgument ha hn
        · exact hgap 0 hn
      · exact hrest hn

/-- **Reading arguments undoes quoting.** Whatever the arguments are and whatever white space stands
between them, their quoted forms are read back as the arguments. If there is no newline among them,
a title line with these is the token of the title with the arguments for fields and no other. -/
theorem tokens_quoteArguments {gap : Nat → Text} (h : ∀ i, gap i ≠ [] ∧ (gap i).isBlank = true)
    (args : List Text) :
    arguments (quoteArguments gap args) = args ∧
      ((∀ a ∈ args, '\n' ∉ a) → (∀ i, '\n' ∉ gap i) →
        tokens (".TH ".toList ++ quoteArguments gap args) = [.title (.ofArgs args)]) := by
  have hread := arguments_quoteArguments h args
  refine ⟨hread, fun hargs hgap => ?_⟩
  have hline := newline_not_mem_quoteArguments hargs hgap
  have hpage : '\n' ∉ ".TH ".toList ++ quoteArguments gap args := by
    simpa using hline
  rw [tokens, lines_of_not_mem (by simp) hpage, readFrom_title rfl (request_titleLine _), hread]

/-- Arguments that are empty, begin or end with quotes, or hold nothing else. -/
theorem tokens_quoteArguments_quotes :
    let gap : Nat → Text := fun _ => " \t".toList
    let args := [[], "\"".toList, "a \"\" b".toList, "\"\"".toList, "c\"".toList]
    (∀ i, gap i ≠ [] ∧ (gap i).isBlank = true) ∧ (∀ a ∈ args, '\n' ∉ a) ∧ (∀ i, '\n' ∉ gap i) ∧
      quoteArguments gap args =
        "\"\" \t\"\"\"\" \t\"a \"\"\"\" b\" \t\"\"\"\"\"\" \t\"c\"\"\"".toList ∧
      arguments (quoteArguments gap args) = args ∧
      tokens (".TH ".toList ++ quoteArguments gap args) = [.title (.ofArgs args)] := by
  intro gap args
  have h : ∀ i, gap i ≠ [] ∧ (gap i).isBlank = true := fun _ => by decide
  have hargs : ∀ a ∈ args, '\n' ∉ a := by decide
  have hgap : ∀ i, '\n' ∉ gap i := fun _ => by decide
  obtain ⟨hread, htitle⟩ := tokens_quoteArguments h args
  exact ⟨h, hargs, hgap, by decide, hread, htitle hargs hgap⟩

end TextPager.Man
