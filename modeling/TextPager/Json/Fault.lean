import TextPager.Text.Quoted
import TextPager.Text.Number
import TextPager.Text.Utf8

/-!
# Faults in JSON

A JSON text can be malformed, or well formed and not what was expected. Either fault lies at an
offset in bytes, which a message shows as a line and a column.

**Results.**
* `Place.ofOffset_zero`: the first byte is on the first line, before its first column.
-/
namespace TextPager.Json

/-- What makes a text no JSON. -/
inductive Malformed where
  | endInValue | endInString | endInList | endInObject
  | expectedColon | expectedCommaOrBracket | expectedCommaOrBrace
  | expectedIdent | expectedValue | keyNotString
  | invalidEscape | invalidNumber | numberOutOfRange | invalidUnicode
  | controlInString | loneSurrogate | unfinishedSurrogate
  | trailingComma | trailingCharacters
  deriving DecidableEq, Repr

def Malformed.message : Malformed → String
  | endInValue => "EOF while parsing a value"
  | endInString => "EOF while parsing a string"
  | endInList => "EOF while parsing a list"
  | endInObject => "EOF while parsing an object"
  | expectedColon => "expected `:`"
  | expectedCommaOrBracket => "expected `,` or `]`"
  | expectedCommaOrBrace => "expected `,` or `\x7d`"
  | expectedIdent => "expected ident"
  | expectedValue => "expected value"
  | keyNotString => "key must be a string"
  | invalidEscape => "invalid escape"
  | invalidNumber => "invalid number"
  | numberOutOfRange => "number out of range"
  | invalidUnicode => "invalid unicode code point"
  | controlInString =>
    "control character (\\u0000-\\u001F) found while parsing a string"
  | loneSurrogate => "lone leading surrogate in hex escape"
  | unfinishedSurrogate => "unexpected end of hex escape"
  | trailingComma => "trailing comma"
  | trailingCharacters => "trailing characters"

/-- A value that was found where another was expected. -/
inductive Found where
  | null
  | boolean (value : Bool)
  | integer (negative : Bool) (magnitude : Nat)
  /-- A number with a fraction or an exponent, or beyond the whole numbers; its text. -/
  | float (text : Text)
  | string (text : Text)
  | sequence
  | map
  deriving DecidableEq, Repr

/-- A text between backquotes. -/
def ticked (t : Text) : Text := ['`'] ++ t ++ ['`']

def Found.describe : Found → Text
  | null => "null".toList
  | boolean value => "boolean ".toList ++ ticked (if value then "true" else "false").toList
  | integer negative magnitude =>
    "integer ".toList ++ ticked ((if negative then ['-'] else []) ++ Text.ofNat magnitude)
  | float text => "floating point ".toList ++ ticked text
  | string text => "string ".toList ++ text.quoted
  | sequence => "sequence".toList
  | map => "map".toList

/-- What makes a well-formed text the wrong one. -/
inductive Unexpected where
  | wrongType (found : Found) (expected : String)
  | wrongValue (found : Found) (expected : String)
  | unknownField (name : Text) (known : List String)
  | duplicateField (name : String)
  | unknownVariant (name : Text) (known : List String)
  deriving DecidableEq, Repr

/-- Names between backquotes, with commas between them. -/
def tickedList (names : List String) : Text :=
  List.intercalate ", ".toList (names.map fun n => ticked n.toList)

def Unexpected.message : Unexpected → Text
  | wrongType found expected =>
    "invalid type: ".toList ++ found.describe ++ ", expected ".toList ++ expected.toList
  | wrongValue found expected =>
    "invalid value: ".toList ++ found.describe ++ ", expected ".toList ++ expected.toList
  | unknownField name known =>
    "unknown field ".toList ++ ticked name ++ ", expected one of ".toList ++ tickedList known
  | duplicateField name => "duplicate field ".toList ++ ticked name.toList
  | unknownVariant name known =>
    "unknown variant ".toList ++ ticked name ++ ", expected one of ".toList ++ tickedList known

inductive FaultKind where
  | malformed (m : Malformed)
  | unexpected (u : Unexpected)
  deriving DecidableEq, Repr

/-- A fault and its offset in bytes. -/
structure Fault where
  kind : FaultKind
  offset : Nat
  deriving DecidableEq, Repr

/-- A line, counted from 1, and the bytes before an offset on that line. -/
structure Place where
  line : Nat
  column : Nat
  deriving DecidableEq, Repr

/-- The place of an offset. -/
def Place.ofOffset (bs : Bytes) (offset : Nat) : Place :=
  (bs.take offset).foldl
    (fun p b => if b.toNat = '\n'.toNat then ⟨p.line + 1, 0⟩ else ⟨p.line, p.column + 1⟩) ⟨1, 0⟩

theorem Place.ofOffset_zero (bs : Bytes) : ofOffset bs 0 = ⟨1, 0⟩ := rfl

/-- What the fault is, without its place. -/
def FaultKind.message : FaultKind → Text
  | malformed m => m.message.toList
  | unexpected u => u.message

/-- The fault and its place in the text. -/
def Fault.message (bs : Bytes) (f : Fault) : Text :=
  let place := Place.ofOffset bs f.offset
  f.kind.message ++ " at line ".toList ++ Text.ofNat place.line ++ " column ".toList ++
    Text.ofNat place.column

end TextPager.Json
