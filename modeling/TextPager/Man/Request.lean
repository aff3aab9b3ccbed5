import TextPager.Man.Token
import TextPager.Text.Number

/-!
# Requests

A line that begins with a dot is a request: a macro name, then arguments between blanks. Double
quotes group an argument, so that it may hold blanks or be empty; inside them two quotes stand
for one. `Keyword` says what a macro asks for.

**Results.**
* `arguments_quoted`: a quoted argument is read back as it was before it was quoted.
* `Keyword.isStructural_eq`: a macro is structural unless it is a font or unknown.
-/
namespace TextPager.Man

/-- What a macro asks for. -/
inductive Keyword where
  | title
  | heading (rank : HeadingRank)
  | paragraph
  | indented
  | tagged
  /-- A further tag for the paragraph in progress. -/
  | furtherTag
  | shiftIn
  | shiftOut
  | verbatim
  | endVerbatim
  | synopsis
  | endSynopsis
  | option
  | link (kind : LinkKind)
  | endLink
  | font (font : Font)
  | unknown
  deriving DecidableEq, Repr

namespace Keyword

/-- The macros with a meaning of their own, fonts apart. -/
def structural : List (String × Keyword) :=
  [("TH", title), ("SH", heading .major), ("SS", heading .minor), ("P", paragraph),
    ("LP", paragraph), ("PP", paragraph), ("IP", indented), ("TP", tagged), ("TQ", furtherTag),
    ("RS", shiftIn), ("RE", shiftOut), ("EX", verbatim), ("EE", endVerbatim), ("SY", synopsis),
    ("YS", endSynopsis), ("OP", option), ("MT", link .email), ("ME", endLink), ("UR", link .url),
    ("UE", endLink)]

/-- The keyword of a macro name; upper and lower case differ. -/
def ofName (n : Text) : Keyword :=
  match structural.find? (fun k => k.1.toList == n) with
  | some k => k.2
  | none => match Font.ofName? n with
    | some f => font f
    | none => unknown

/-- A structural macro ends the paragraph it appears in. -/
def isStructural : Keyword → Bool
  | font _ | unknown => false
  | _ => true

theorem isStructural_eq (k : Keyword) :
    k.isStructural = false ↔ (∃ f, k = font f) ∨ k = unknown := by
  cases k <;> simp [isStructural]

end Keyword

/-- Where the reading of arguments stands. -/
inductive ArgumentScan where
  | between
  /-- In an argument, outside quotes. -/
  | bare (read : Text)
  /-- In an argument, inside quotes. -/
  | quoted (read : Text)

/-- The arguments still to come. -/
def argumentsFrom : ArgumentScan → Text → List Text
  | .between, [] => []
  | .bare a, [] => [a]
  | .quoted a, [] => [a]
  | .quoted a, '"' :: '"' :: t => argumentsFrom (.quoted (a ++ ['"'])) t
  | .quoted a, c :: t =>
    if c = '"' then argumentsFrom (.bare a) t else argumentsFrom (.quoted (a ++ [c])) t
  | .bare a, c :: t =>
    if isSpace c then a :: argumentsFrom .between t else argumentsFrom (.bare (a ++ [c])) t
  | .between, c :: t =>
    if c = '"' then argumentsFrom (.quoted []) t
    else if isSpace c then argumentsFrom .between t
    else argumentsFrom (.bare [c]) t

/-- The arguments in the text after a macro name. -/
def arguments (t : Text) : List Text := argumentsFrom .between t

/-- An argument between quotes, each quote in it doubled. -/
def quoteArgument (a : Text) : Text :=
  ['"'] ++ a.flatMap (fun c => if c = '"' then ['"', '"'] else [c]) ++ ['"']

/-- A line that begins with a dot. -/
structure Request where
  keyword : Keyword
  args : List Text
  deriving DecidableEq, Repr

/-- The request a line makes, if it begins with a dot. -/
def Request.ofLine? : Text → Option Request
  | '.' :: body =>
    let named (c : Char) := !isSpace c
    some ⟨Keyword.ofName (body.takeWhile named), arguments (body.dropWhile named)⟩
  | _ => none

/-- The keyword of a line that makes a request. -/
def keyword? (line : Text) : Option Keyword := (Request.ofLine? line).map Request.keyword

/-- The line makes a structural request. -/
def isStructural (line : Text) : Bool := (keyword? line).any Keyword.isStructural

/-- A comment is written `.\"` or `'\"`. -/
def isComment : Text → Bool
  | '.' :: '\\' :: '"' :: _ => true
  | '\'' :: '\\' :: '"' :: _ => true
  | _ => false

/-- An indent, given as a number that a scale unit such as `n` may follow. -/
def indent? (arg : Text) : Option Nat := (arg.dropEndWhile isLetter).number?

/-! ## Quoting and reading arguments -/

theorem argumentsFrom_quoted_append (a s rest : Text) (hrest : rest.head? ≠ some '"') :
    argumentsFrom (.quoted a)
        (s.flatMap (fun c => if c = '"' then ['"', '"'] else [c]) ++ '"' :: rest) =
      argumentsFrom (.bare (a ++ s)) rest := by
  induction s generalizing a with
  | nil =>
    cases rest with
    | nil => simp [argumentsFrom]
    | cons d r =>
      have hd : d ≠ '"' := by
        intro he
        subst he
        exact hrest rfl
      simp [argumentsFrom, hd]
  | cons c s ih =>
    by_cases hc : c = '"'
    · subst hc
      simpa [argumentsFrom] using ih (a ++ ['"'])
    · simpa [argumentsFrom, hc] using ih (a ++ [c])

/-- A quoted argument is read back as it was before it was quoted. -/
theorem arguments_quoted (a : Text) : arguments (quoteArgument a) = [a] := by
  have := argumentsFrom_quoted_append [] a [] (by simp)
  simpa [arguments, quoteArgument, argumentsFrom] using this

end TextPager.Man
