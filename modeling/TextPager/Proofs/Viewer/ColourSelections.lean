import TextPager.Proofs.Text.Words
import TextPager.Viewer.Span

/-!
# Colour selections

A rendition sequence holds parameters with semicolons between them. They are read one by one, and
each says something about some of the three modifiers, or nothing: it takes all of them back, turns
one on or turns one off. So a modifier is as the last parameter says that says something about it.

An extended colour is several parameters that belong together: 38, or 48 for the ground, then 5 and
the number of a colour, or 2 and the three parts of one. Read one by one, 38, 48, 5 and 2 say
nothing, but a number may be the code of a modifier. So a colour is swallowed exactly if what its
numbers say is said again later, or was so before.

**Results.**
* `select_setting`, `foldl_select_setting`: what parameters do to a modifier.
* `apply_rendition`: a rendition sequence selects what its parameters say, one after the other.
* `apply_rendition_insert_iff`: when a colour among the parameters changes nothing; one that does is
  `apply_rendition_insert_bold`.
-/
namespace TextPager

/-- One of the ways of showing a character. -/
inductive Modifier where
  | bold | underlined | reversed
  deriving DecidableEq, Repr

def Modifiers.has (ms : Modifiers) : Modifier → Bool
  | .bold => ms.bold
  | .underlined => ms.underlined
  | .reversed => ms.reversed

/-- Whether a style turns a modifier on, and whether it turns it off. -/
def Style.setting (s : Style) (m : Modifier) : Bool × Bool := (s.added.has m, s.removed.has m)

namespace Modifier

/-- The parameter that turns the modifier on. -/
def onCode : Modifier → Text
  | bold => ['1']
  | underlined => ['4']
  | reversed => ['7']

/-- The parameter that turns the modifier off. -/
def offCode : Modifier → Text
  | bold => ['2', '2']
  | underlined => ['2', '4']
  | reversed => ['2', '7']

/-- The setting of the modifier that a parameter says. -/
def said (m : Modifier) (p : Text) : Option (Bool × Bool) :=
  if p = [] ∨ p = ['0'] then some (false, false)
  else if p = m.onCode then some (true, false)
  else if p = m.offCode then some (false, true)
  else none

/-- The setting that the last of the parameters says that says one. -/
def lastSaid (m : Modifier) (ps : List Text) : Option (Bool × Bool) := ps.reverse.findSome? m.said

theorem lastSaid_append (m : Modifier) (a b : List Text) :
    m.lastSaid (a ++ b) = (m.lastSaid b).or (m.lastSaid a) := by
  rw [lastSaid, List.reverse_append, List.findSome?_append]
  rfl

theorem lastSaid_cons (m : Modifier) (p : Text) (ps : List Text) :
    m.lastSaid (p :: ps) = (m.lastSaid ps).or (m.said p) := by
  rw [← List.singleton_append, lastSaid_append, lastSaid, lastSaid, List.reverse_singleton,
    List.findSome?_singleton]

end Modifier

namespace Style

/-- A style is the settings of its modifiers. -/
theorem eq_iff_setting {s t : Style} : s = t ↔ ∀ m, s.setting m = t.setting m := by
  refine ⟨fun h _ => by rw [h], fun h => ?_⟩
  obtain ⟨⟨_, _, _⟩, ⟨_, _, _⟩⟩ := s
  obtain ⟨⟨_, _, _⟩, ⟨_, _, _⟩⟩ := t
  have hbold := h .bold
  have hunderlined := h .underlined
  have hreversed := h .reversed
  simp_all [setting, Modifiers.has]

/-- A parameter sets a modifier as it says, and leaves it if it says nothing. -/
theorem select_setting (s : Style) (p : Text) (m : Modifier) :
    (s.select p).setting m = (m.said p).getD (s.setting m) := by
  unfold select
  split <;> cases m <;> simp_all [Modifier.said, Modifier.onCode, Modifier.offCode, setting, add,
    remove, plain, Modifiers.has, Modifiers.union, Modifiers.diff, Modifiers.none,
    Modifiers.justBold, Modifiers.justUnderlined, Modifiers.justReversed]

/-- The last parameter that says something about a modifier decides it. -/
theorem foldl_select_setting (s : Style) (ps : List Text) (m : Modifier) :
    (ps.foldl select s).setting m = (m.lastSaid ps).getD (s.setting m) := by
  induction ps generalizing s with
  | nil => rfl
  | cons p ps ih => rw [List.foldl_cons, ih, select_setting, Modifier.lastSaid_cons, Option.getD_or]

end Style

/-! ## Rendition sequences -/

/-- The sequence that selects a rendition. -/
def rendition (ps : List Text) : Text := esc :: '[' :: (List.intercalate [';'] ps ++ ['m'])

/-- A rendition sequence selects what its parameters say, one after the other. -/
theorem apply_rendition (p : Pen) {ps : List Text} (hne : ps ≠ []) (h : ∀ q ∈ ps, ';' ∉ q) :
    p.apply (rendition ps) = { p with style := ps.foldl Style.select p.style } := by
  have hform : rendition ps = '\x1b' :: '[' :: (List.intercalate [';'] ps ++ ['m']) := rfl
  have hlast : (List.intercalate [';'] ps ++ ['m']).getLast? = some 'm' := List.getLast?_concat
  rw [hform, Pen.apply, if_pos hlast, List.dropLast_concat, Text.piecesAt_intercalate hne h]

/-! ## Colours -/

/-- A colour by its number, or by its parts. -/
inductive Colour where
  | indexed (n : Text)
  | direct (red green blue : Text)

namespace Colour

def numbers : Colour → List Text
  | indexed n => [n]
  | direct red green blue => [red, green, blue]

/-- The parameter that says what numbers follow. -/
def kindCode : Colour → Text
  | indexed _ => ['5']
  | direct .. => ['2']

end Colour

/-- An extended colour for the text or for the ground. Its numbers are written in digits. -/
structure ColourSelection where
  ground : Bool
  colour : Colour
  digits : ∀ n ∈ colour.numbers, n ≠ [] ∧ ∀ c ∈ n, c.isDigit = true

namespace ColourSelection

def code (sel : ColourSelection) : Text := if sel.ground then ['4', '8'] else ['3', '8']

def params (sel : ColourSelection) : List Text :=
  sel.code :: sel.colour.kindCode :: sel.colour.numbers

/-- Read as parameters, a colour says what its numbers say. -/
theorem lastSaid_params (sel : ColourSelection) (m : Modifier) :
    m.lastSaid sel.params = m.lastSaid sel.colour.numbers := by
  have hcode : m.said sel.code = none := by
    unfold code
    split <;> cases m <;> rfl
  have hkind : m.said sel.colour.kindCode = none := by
    unfold Colour.kindCode
    split <;> cases m <;> rfl
  rw [params, Modifier.lastSaid_cons, Modifier.lastSaid_cons, hcode, hkind, Option.or_none,
    Option.or_none]

/-- No parameter of a colour holds a semicolon. -/
theorem semicolon_not_mem (sel : ColourSelection) : ∀ q ∈ sel.params, ';' ∉ q := by
  have hcode : ';' ∉ sel.code := by
    unfold code
    split <;> decide
  have hkind : ';' ∉ sel.colour.kindCode := by
    unfold Colour.kindCode
    split <;> decide
  refine List.forall_mem_cons.2 ⟨hcode, List.forall_mem_cons.2 ⟨hkind, fun n hn hmem => ?_⟩⟩
  exact absurd ((sel.digits n hn).2 ';' hmem) (by decide)

end ColourSelection

/-- **When a colour is swallowed.** Let a rendition sequence have parameters, none of them with a
semicolon, and insert an extended colour anywhere. The pen is left as without the colour exactly if,
for every modifier, what the numbers of the colour say last about it is said again by a parameter
after the colour, or was so before the colour. -/
theorem apply_rendition_insert_iff (p : Pen) (sel : ColourSelection) {a b : List Text}
    (hne : a ++ b ≠ []) (h : ∀ q ∈ a ++ b, ';' ∉ q) :
    p.apply (rendition (a ++ sel.params ++ b)) = p.apply (rendition (a ++ b)) ↔
      ∀ (m : Modifier) (v : Bool × Bool), m.lastSaid sel.colour.numbers = some v →
        m.lastSaid b ≠ none ∨ (m.lastSaid a).getD (p.style.setting m) = v := by
  obtain ⟨ha, hb⟩ := List.forall_mem_append.1 h
  have hall : ∀ q ∈ a ++ sel.params ++ b, ';' ∉ q :=
    List.forall_mem_append.2 ⟨List.forall_mem_append.2 ⟨ha, sel.semicolon_not_mem⟩, hb⟩
  have hnone : a ++ sel.params ++ b ≠ [] := by simp [ColourSelection.params]
  have hstyle : p.apply (rendition (a ++ sel.params ++ b)) = p.apply (rendition (a ++ b)) ↔
      (a ++ sel.params ++ b).foldl Style.select p.style = (a ++ b).foldl Style.select p.style := by
    rw [apply_rendition p hnone hall, apply_rendition p hne h, Pen.mk.injEq]
    exact and_iff_left rfl
  rw [hstyle, Style.eq_iff_setting]
  refine forall_congr' fun m => ?_
  rw [Style.foldl_select_setting, Style.foldl_select_setting, Modifier.lastSaid_append,
    Modifier.lastSaid_append, Modifier.lastSaid_append, ColourSelection.lastSaid_params]
  cases m.lastSaid b with
  | some w => simp
  | none =>
    cases m.lastSaid sel.colour.numbers with
    | none => simp
    | some v => simp [eq_comm]

/-- A colour for the ground between bold and reversed: its second part says bold again, and its last
part is overruled. -/
theorem apply_rendition_insert_overruled :
    let sel : ColourSelection :=
      ⟨true, .direct "255".toList "1".toList "27".toList, by simp [Colour.numbers]⟩
    [['1']] ++ [['7']] ≠ [] ∧ (∀ q ∈ [['1']] ++ [['7']], ';' ∉ q) ∧
      Pen.initial.apply (rendition ([['1']] ++ sel.params ++ [['7']])) =
        Pen.initial.apply (rendition ([['1']] ++ [['7']])) := by
  intro sel
  have hne : [['1']] ++ [['7']] ≠ [] := by decide
  have hsep : ∀ q ∈ [['1']] ++ [['7']], ';' ∉ q := by decide
  refine ⟨hne, hsep, (apply_rendition_insert_iff .initial sel hne hsep).2 fun m v hv => ?_⟩
  cases m with
  | bold => exact .inr (Option.some.inj hv)
  | underlined => cases hv
  | reversed => exact .inl (by decide)

/-- The number of a colour after a parameter that is no part of one: underlined text becomes bold as
well. -/
theorem apply_rendition_insert_bold :
    let sel : ColourSelection := ⟨false, .indexed ['1'], by simp [Colour.numbers]⟩
    (∀ other : ColourSelection, ¬other.params <:+: [['4']]) ∧
      Pen.initial.apply (rendition ([['4']] ++ sel.params ++ [])) ≠
        Pen.initial.apply (rendition ([['4']] ++ [])) := by
  refine ⟨fun other hinfix => ?_, by decide⟩
  have hlength := hinfix.length_le
  simp [ColourSelection.params] at hlength

end TextPager
