import TextPager.Proofs.Man.Grammar
import TextPager.Man.Layout

/-!
# The layout of well-built tokens

Layout recurs through trees of any depth, but a page is read into shallow ones. For these it comes
down to lists: running text is one phrase for each token, a synopsis is a list of commands with
their units, and a section is a list of chunks, each filled prose or a synopsis. Lines are then
set chunk by chunk and command by command, at every width and in every style.

**Results.**
* `phrases_eq`: running text is its phrases.
* `synopsisLines_eq`: the lines of a synopsis are those of its commands.
* `sectionLines_eq`: the lines of a section are those of its chunks.
* `forall_commands_iff`, `forall_chunks_iff`: commands and chunks hold the tokens they were made
  from.
-/
namespace TextPager.Man

variable {P : Char → Prop}

/-- What a token adds to a line of running text. A command inside a synopsis adds its name. -/
def Token.phrase (s : Styles) : Token → Text
  | text l | unknown l => l
  | font f t => f.render s t
  | option name argument => optionText s name argument
  | synopsis command _ => s.apply .bold command
  | _ => []

/-- An alternating font without styles leaves the text as it was. -/
theorem render_plain (f : Font) (t : Text) : f.render .plain t = t := by
  have halt : ∀ (ts : List Text) (e o : Emphasis), Font.alternate .plain e o ts = ts := by
    intro ts
    induction ts with
    | nil => intro e o; rfl
    | cons t ts ih => intro e o; rw [Font.alternate, Styles.plain_apply, ih]
  unfold Font.render
  split
  · rw [halt]
    exact Text.intercalate_piecesAt ' ' t
  · exact Styles.plain_apply _ t

theorem isSynopsis_of_inline {t : Token} (h : t.Inline P) : t.isSynopsis = false := by
  cases t with
  | text | unknown | font => rfl
  | _ => cases h

theorem inText_layout_unit {t : Token} (h : t.Unit P) (hn : t.isSynopsis = false) (s : Styles)
    (width indent : Nat) : t.inText (t.layout s width indent) = t.phrase s := by
  cases t with
  | text | unknown | font | option =>
    simp [Token.inText, Token.isPhrase, Token.layout, Token.phrase]
  | synopsis => cases hn
  | _ => cases h

theorem inText_layout_inline {t : Token} (h : t.Inline P) (s : Styles) (width indent : Nat) :
    t.inText (t.layout s width indent) = t.phrase s :=
  inText_layout_unit h.unit (isSynopsis_of_inline h) s width indent

theorem phrases_of_unit {ts : List Token} (h : ∀ t ∈ ts, t.Unit P ∧ t.isSynopsis = false)
    (s : Styles) (width : Nat) : phrases s ts width = ts.map (Token.phrase s) := by
  induction ts with
  | nil => simp [phrases]
  | cons t ts ih =>
    obtain ⟨⟨ht, hn⟩, hts⟩ := List.forall_mem_cons.1 h
    rw [phrases, inText_layout_unit ht hn, ih hts, List.map_cons]

theorem phrases_eq {ts : List Token} (h : ∀ t ∈ ts, t.Inline P) (s : Styles) (width : Nat) :
    phrases s ts width = ts.map (Token.phrase s) :=
  phrases_of_unit (fun t ht => ⟨(h t ht).unit, isSynopsis_of_inline (h t ht)⟩) s width

/-! ## Synopses -/

/-- A command of a synopsis and what stands behind it. -/
structure Command where
  name : Text
  units : List Token

/-- The commands of a synopsis, given the one in progress and its units so far. -/
def commands : Text → List Token → List Token → List Command
  | name, units, [] => [⟨name, units⟩]
  | name, units, .synopsis next _ :: ts => ⟨name, units⟩ :: commands next [] ts
  | name, units, t :: ts => commands name (units ++ [t]) ts

namespace Command

/-- What is filled into the lines of the command. -/
def phrases (s : Styles) (c : Command) : List Text :=
  s.apply .bold c.name :: c.units.map (Token.phrase s)

/-- The lines of the command. -/
def lines (s : Styles) (width : Nat) (c : Command) : List Text :=
  commandLines s c.name (c.units.map (Token.phrase s)) width

end Command

theorem commands_cons {t : Token} (hn : t.isSynopsis = false) (name : Text)
    (units ts : List Token) : commands name units (t :: ts) = commands name (units ++ [t]) ts := by
  cases t with
  | synopsis => cases hn
  | _ => rfl

theorem synopsisLines_cons {t : Token} (hn : t.isSynopsis = false) (s : Styles) (ts : List Token)
    (width : Nat) (name : Text) (units : List Text) :
    synopsisLines s (t :: ts) width name units =
      synopsisLines s ts width name (units ++ [t.inText (t.layout s width defaultIndent)]) := by
  cases t with
  | synopsis => cases hn
  | _ => simp [synopsisLines]

/-- The lines of a synopsis are those of its commands. -/
theorem synopsisLines_eq {ts : List Token} (h : ∀ t ∈ ts, t.Unit P) (s : Styles) (width : Nat)
    (name : Text) (units : List Token) :
    synopsisLines s ts width name (units.map (Token.phrase s)) =
      (commands name units ts).flatMap (Command.lines s width) := by
  induction ts generalizing name units with
  | nil => simp [synopsisLines, commands, Command.lines]
  | cons t ts ih =>
    obtain ⟨ht, hts⟩ := List.forall_mem_cons.1 h
    cases hn : t.isSynopsis with
    | false =>
      rw [synopsisLines_cons hn, inText_layout_unit ht hn, commands_cons hn, ← ih hts,
        List.map_append, List.map_singleton]
    | true =>
      cases t with
      | synopsis next contents =>
        obtain ⟨-, rfl⟩ := ht
        have hnext := ih hts next []
        rw [List.map_nil] at hnext
        simp [synopsisLines, phrases, commands, hnext, Command.lines]
      | _ => cases hn

/-- The commands of a synopsis hold the names and the units it was made from. -/
theorem forall_commands_iff (A : Text → Prop) (B : Token → Prop) (ts : List Token) (name : Text)
    (units : List Token) :
    (∀ c ∈ commands name units ts, A c.name ∧ ∀ t ∈ c.units, B t) ↔
      A name ∧ (∀ t ∈ units, B t) ∧ ∀ t ∈ ts, match t with
        | .synopsis next _ => A next
        | t => B t := by
  induction ts generalizing name units with
  | nil => simp [commands]
  | cons t ts ih =>
    cases hn : t.isSynopsis with
    | false =>
      rw [commands_cons hn, ih, List.forall_mem_append, List.forall_mem_singleton,
        List.forall_mem_cons, and_assoc]
      cases t with
      | synopsis => cases hn
      | _ => rfl
    | true =>
      cases t with
      | synopsis next contents =>
        rw [commands, List.forall_mem_cons, ih, List.forall_mem_cons, and_assoc]
        simp
      | _ => cases hn

theorem forall_phrases_iff (s : Styles) (Q : Text → Prop) (name : Text) (ts : List Token) :
    (∀ c ∈ commands name [] ts, ∀ x ∈ c.phrases s, Q x) ↔
      Q (s.apply .bold name) ∧ ∀ t ∈ ts, Q (t.phrase s) := by
  have h := forall_commands_iff (fun n => Q (s.apply .bold n)) (fun t => Q (t.phrase s)) ts name []
  have hphrase : ∀ t : Token, (match t with
      | .synopsis next _ => Q (s.apply .bold next)
      | t => Q (t.phrase s)) ↔ Q (t.phrase s) := by
    intro t
    cases t <;> rfl
  have hcommand : ∀ c : Command, (∀ x ∈ c.phrases s, Q x) ↔
      Q (s.apply .bold c.name) ∧ ∀ t ∈ c.units, Q (t.phrase s) := by
    intro c
    simp [Command.phrases]
  simp only [hphrase] at h
  simp only [hcommand, h]
  simp

/-! ## Sections -/

/-- A stretch of a section: running text that is filled together, or a synopsis. -/
inductive Chunk where
  | prose (tokens : List Token)
  | synopsis (name : Text) (contents : List Token)

/-- The chunks of a section, given the running text that waits to be filled. -/
def chunks : List Token → List Token → List Chunk
  | prose, [] => [.prose prose]
  | prose, .synopsis name contents :: ts => .prose prose :: .synopsis name contents :: chunks [] ts
  | prose, t :: ts => chunks (prose ++ [t]) ts

/-- The lines of a chunk. -/
def Chunk.lines (s : Styles) (width : Nat) : Chunk → List Text
  | prose ts => (Text.joinWords (ts.map (Token.phrase s))).wrap width
  | synopsis name contents =>
    (Text.ended ((commands name [] contents).flatMap (Command.lines s width))).lines

theorem chunks_cons {t : Token} (hn : t.isSynopsis = false) (prose ts : List Token) :
    chunks prose (t :: ts) = chunks (prose ++ [t]) ts := by
  cases t with
  | synopsis => cases hn
  | _ => rfl

/-- The lines of a section are those of its chunks. -/
theorem sectionLines_eq {ts : List Token} (h : ∀ t ∈ ts, t.Part P) (s : Styles) (width : Nat)
    (prose : List Token) :
    sectionLines s ts width (prose.map (Token.phrase s)) =
      indentLines sectionIndent ((chunks prose ts).flatMap (Chunk.lines s width)) := by
  have hindent : ∀ a b : List Text, indentLines sectionIndent (a ++ b) =
      indentLines sectionIndent a ++ indentLines sectionIndent b := fun a b => List.map_append
  induction ts generalizing prose with
  | nil => simp [sectionLines, chunks, Chunk.lines]
  | cons t ts ih =>
    obtain ⟨ht, hts⟩ := List.forall_mem_cons.1 h
    cases hn : t.isSynopsis with
    | false =>
      have hi : t.Inline P := by
        cases t with
        | synopsis => cases hn
        | _ => exact ht
      rw [sectionLines, hn, inText_layout_inline hi, chunks_cons hn, ← ih hts, List.map_append]
      simp
    | true =>
      cases t with
      | synopsis name contents =>
        have hnext := ih hts []
        have hlines := synopsisLines_eq ht.2 s width name []
        rw [List.map_nil] at hnext hlines
        simp [sectionLines, hn, Token.layout, hlines, hnext, chunks, Chunk.lines, hindent]
      | _ => cases hn

/-- A property of the running text and one of the synopses of a section hold of a chunk. -/
def Chunk.All (A : Token → Prop) (B : Text → List Token → Prop) : Chunk → Prop
  | prose ts => ∀ t ∈ ts, A t
  | synopsis name contents => B name contents

/-- The command and the contents of a synopsis. -/
def Token.synopsis? : Token → Option (Text × List Token)
  | synopsis name contents => some (name, contents)
  | _ => none

/-- The same for a token of a section. -/
def Token.PartAll (A : Token → Prop) (B : Text → List Token → Prop) (t : Token) : Prop :=
  match t.synopsis? with
  | some (name, contents) => B name contents
  | none => A t

instance (A : Token → Prop) (B : Text → List Token → Prop) [DecidablePred A]
    [∀ name contents, Decidable (B name contents)] (t : Token) : Decidable (t.PartAll A B) :=
  match h : t.synopsis? with
  | some (name, contents) => decidable_of_iff (B name contents) (by simp [Token.PartAll, h])
  | none => decidable_of_iff (A t) (by simp [Token.PartAll, h])

theorem Token.partAll_of_not_synopsis {A : Token → Prop} {B : Text → List Token → Prop} {t : Token}
    (hn : t.isSynopsis = false) : t.PartAll A B ↔ A t := by
  cases t with
  | synopsis => cases hn
  | _ => rfl

/-- The chunks of a section hold the tokens it was made from. -/
theorem forall_chunks_iff (A : Token → Prop) (B : Text → List Token → Prop)
    (prose ts : List Token) :
    (∀ c ∈ chunks prose ts, c.All A B) ↔ (∀ t ∈ prose, A t) ∧ ∀ t ∈ ts, t.PartAll A B := by
  induction ts generalizing prose with
  | nil => simp [chunks, Chunk.All]
  | cons t ts ih =>
    cases hn : t.isSynopsis with
    | false =>
      rw [chunks_cons hn, ih, List.forall_mem_append, List.forall_mem_singleton,
        List.forall_mem_cons, and_assoc, Token.partAll_of_not_synopsis hn]
    | true =>
      cases t with
      | synopsis name contents =>
        have hpart : (Token.synopsis name contents).PartAll A B ↔ B name contents := Iff.rfl
        rw [chunks, List.forall_mem_cons, List.forall_mem_cons, ih, List.forall_mem_cons, hpart]
        simp [Chunk.All]
      | _ => cases hn

end TextPager.Man
