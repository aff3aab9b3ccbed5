import TextPager.Man.Block

/-!
# Tokens at every depth

A token holds other tokens, and these hold more. `Token.family` lists a token with everything
inside it in rendering order: a heading before its section, a tag before the contents that stand
beside it, tokens from left to right. What a page holds at any depth is read off that list.

**Results.**
* `families_append`: what two runs of tokens hold, they hold one after the other.
* `held_cons`, `texts_cons`: the strings of a token are its own and then those of the tokens
  inside it.
-/
namespace TextPager.Man

namespace Token

/-- The tokens directly inside a token, tags first. -/
def children : Token → List Token
  | heading _ _ cs | paragraph cs | indented _ _ cs | verbatim cs | synopsis _ cs => cs
  | link _ _ cs _ => cs
  | tagged tags _ cs => tags ++ cs
  | text _ | unknown _ | title _ | shiftIn _ | shiftOut _ | option .. | font .. => []

/-- The string of a text token. -/
def text? : Token → Option Text
  | text line => some line
  | _ => none

/-- The string a token shows as running text or as a heading: that of a text token, of a font
token, and the heading of a section. -/
def held? : Token → Option Text
  | text line => some line
  | font _ t => some t
  | heading _ h _ => some h
  | _ => none

end Token

mutual

/-- A token and all tokens inside it, in rendering order. -/
def Token.family : Token → List Token
  | .heading r h cs => .heading r h cs :: families cs
  | .paragraph cs => .paragraph cs :: families cs
  | .indented tag i cs => .indented tag i cs :: families cs
  | .tagged tags i cs => .tagged tags i cs :: (families tags ++ families cs)
  | .verbatim cs => .verbatim cs :: families cs
  | .synopsis c cs => .synopsis c cs :: families cs
  | .link k a cs p => .link k a cs p :: families cs
  | .text l => [.text l]
  | .unknown l => [.unknown l]
  | .title t => [.title t]
  | .shiftIn n => [.shiftIn n]
  | .shiftOut n => [.shiftOut n]
  | .option n a => [.option n a]
  | .font f t => [.font f t]

/-- All tokens of a run, at every depth. -/
def families : List Token → List Token
  | [] => []
  | t :: ts => t.family ++ families ts

end

/-- The strings of the text tokens at every depth. -/
def texts (ts : List Token) : List Text := (families ts).filterMap Token.text?

/-- The strings of the text tokens, the font tokens and the headings at every depth. -/
def held (ts : List Token) : List Text := (families ts).filterMap Token.held?

/-- The token an open block would close with. -/
def inProgress (current : Option OpenBlock) : List Token := (current.map OpenBlock.close).toList

@[simp]
theorem families_nil : families [] = [] := by simp [families]

@[simp]
theorem families_cons (t : Token) (ts : List Token) :
    families (t :: ts) = t.family ++ families ts := by simp [families]

@[simp]
theorem families_append (a b : List Token) : families (a ++ b) = families a ++ families b := by
  induction a with
  | nil => simp
  | cons t a ih => simp [ih]

/-- A token comes first in its family. -/
theorem Token.family_eq (t : Token) : t.family = t :: families t.children := by
  cases t <;> simp [Token.family, Token.children]

theorem mem_families_of_mem {t : Token} {ts : List Token} (h : t ∈ ts) : t ∈ families ts := by
  induction ts with
  | nil => cases h
  | cons u ts ih =>
    rw [families_cons]
    rcases List.mem_cons.1 h with rfl | h
    · exact List.mem_append_left _ (t.family_eq ▸ List.mem_cons_self)
    · exact List.mem_append_right _ (ih h)

@[simp]
theorem texts_nil : texts [] = [] := by simp [texts]

@[simp]
theorem texts_append (a b : List Token) : texts (a ++ b) = texts a ++ texts b := by
  simp [texts]

@[simp]
theorem texts_cons (t : Token) (ts : List Token) :
    texts (t :: ts) = t.text?.toList ++ texts t.children ++ texts ts := by
  simp only [texts, families_cons, t.family_eq, List.cons_append, List.filterMap_cons,
    List.filterMap_append]
  cases t.text? <;> simp

@[simp]
theorem held_nil : held [] = [] := by simp [held]

@[simp]
theorem held_append (a b : List Token) : held (a ++ b) = held a ++ held b := by
  simp [held]

@[simp]
theorem held_cons (t : Token) (ts : List Token) :
    held (t :: ts) = t.held?.toList ++ held t.children ++ held ts := by
  simp only [held, families_cons, t.family_eq, List.cons_append, List.filterMap_cons,
    List.filterMap_append]
  cases t.held? <;> simp

end TextPager.Man
