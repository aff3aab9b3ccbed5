import TextPager.Config.Basic
import TextPager.Json.Reader

/-!
# Configuration files

A configuration file is a JSON object of settings by name, or a list of them in order, which may
be cut short. Settings that are not given keep their defaults; a name that is unknown, or given
twice, is a fault.

**Results.**
* `Setting.mem_all`: every setting has a place in the list form.
-/
namespace TextPager

open Json

/-- A setting of a configuration file. -/
inductive Setting where
  | version | wrapMode | frame | customFrame | pageHeight | pageWidth
  deriving DecidableEq, Repr

namespace Setting

/-- The settings in the order of the list form. -/
def all : List Setting := [version, wrapMode, frame, customFrame, pageHeight, pageWidth]

def name : Setting → String
  | version => "schema_version"
  | wrapMode => "wrap_mode"
  | frame => "frame"
  | customFrame => "custom_frame"
  | pageHeight => "page_height"
  | pageWidth => "page_width"

theorem mem_all (s : Setting) : s ∈ all := by
  cases s <;> decide

/-- Versions are below this number. -/
def versionLimit : Nat := Nat.pow 2 32

/-- Reads the value of a setting into a configuration. -/
def read (c : Config) (s : Setting) (cursor : Cursor) : Except Fault (Config × Cursor) := do
  match s with
  | version =>
    let (n, next) ← readNat versionLimit "u32" cursor
    return ({ c with version := n }, next)
  | wrapMode =>
    let (m, next) ← readChoice WrapMode.all WrapMode.name cursor
    return ({ c with wrapMode := m }, next)
  | frame =>
    let (k, next) ← readChoice FrameKind.all FrameKind.name cursor
    return ({ c with frame := k }, next)
  | customFrame =>
    let (t, next) ← readOption (readText "a string") cursor
    return ({ c with customFrame := t }, next)
  | pageHeight =>
    let (n, next) ← readOption (readNat wordLimit "usize") cursor
    return ({ c with pageHeight := n }, next)
  | pageWidth =>
    let (n, next) ← readOption (readNat wordLimit "usize") cursor
    return ({ c with pageWidth := n }, next)

end Setting

namespace Config

/-- The place of a fault about a name in an object: after the blanks that follow it, and after the
brace if the object ends there. -/
def afterName (c : Cursor) : Cursor :=
  let c := skipSpace c
  if c.byte?.any (fun b => is b '\x7d') then c.drop 1 else c

/-- Reads a setting of an object, from the quote of its name, and then the rest; `seen` are those
before. -/
def readEntry (rest : List Setting → Config → Cursor → Except Fault (Config × Cursor))
    (seen : List Setting) (config : Config) (c : Cursor) : Except Fault (Config × Cursor) := do
  let (name, c) ← readString (c.drop 1)
  match Setting.all.find? fun s => s.name.toList == name with
  | none => (afterName c).wrong (.unknownField name (Setting.all.map Setting.name))
  | some s =>
    if s ∈ seen then (afterName c).wrong (.duplicateField s.name)
    else
      let (config, c) ← s.read config (← readColon c)
      rest (s :: seen) config c

/-- Reads the settings of an object after its brace or a setting, at most so many. -/
def readEntries : Nat → List Setting → Config → Cursor → Except Fault (Config × Cursor)
  | 0, _, _, c => c.peeked .endInObject
  | n + 1, seen, config, c =>
    let c := skipSpace c
    match c.byte? with
    | none => c.peeked .endInObject
    | some b =>
      if is b '\x7d' then .ok (config, c.drop 1)
      else if seen.isEmpty then
        if is b '"' then readEntry (readEntries n) seen config c else c.peeked .keyNotString
      else if !is b ',' then c.peeked .expectedCommaOrBrace
      else
        let c := skipSpace (c.drop 1)
        match c.byte? with
        | none => c.peeked .endInValue
        | some b =>
          if is b '"' then readEntry (readEntries n) seen config c
          else if is b '\x7d' then c.peeked .trailingComma
          else c.peeked .keyNotString

/-- The end of a list. -/
def readListEnd (c : Cursor) : Except Fault Cursor :=
  let c := skipSpace c
  match c.byte? with
  | none => c.peeked .endInList
  | some b =>
    if is b ']' then .ok (c.drop 1)
    else if is b ',' then
      let c := skipSpace (c.drop 1)
      if c.byte?.any (fun b => is b ']') then c.peeked .trailingComma
      else c.peeked .trailingCharacters
    else c.peeked .trailingCharacters

/-- Reads settings in order, as many as the list holds. -/
def readElements : Bool → List Setting → Config → Cursor → Except Fault (Config × Cursor)
  | _, [], config, c => do return (config, ← readListEnd c)
  | isFirst, s :: ss, config, c => do
    let c := skipSpace c
    match c.byte? with
    | none => c.peeked .endInList
    | some b =>
      if is b ']' then return (config, ← readListEnd c)
      else if isFirst then
        let (config, c) ← s.read config c
        readElements false ss config c
      else if !is b ',' then c.peeked .expectedCommaOrBracket
      else
        let c := skipSpace (c.drop 1)
        match c.byte? with
        | none => c.peeked .endInValue
        | some b =>
          if is b ']' then c.peeked .trailingComma
          else
            let (config, c) ← s.read config c
            readElements false ss config c

/-- Reads the settings of a file into a configuration; an object has at most so many. -/
def readSettings (most : Nat) (config : Config) (c : Cursor) : Except Fault (Config × Cursor) :=
  match c.byte? with
  | none => c.peeked .endInValue
  | some b =>
    if is b '\x7b' then readEntries most [] config (c.drop 1)
    else if is b '[' then readElements true Setting.all config (c.drop 1)
    else refuse "struct ReaderConfig" c

/-- Reads a configuration file over a configuration. Each setting of an object takes at least one
byte. -/
def readOver (base : Config) (bs : Bytes) : Except Fault Config := do
  let (config, c) ← readSettings (bs.length + 1) base (skipSpace (Cursor.ofBytes bs))
  let c := skipSpace c
  if c.rest.isEmpty then return config else c.peeked .trailingCharacters

/-- Reads a configuration file over the defaults. -/
def ofJson (bs : Bytes) : Except Fault Config := readOver initial bs

end Config

end TextPager
