import TextPager.Decimal.Double
import TextPager.Json.Fault

/-!
# Reading JSON

A JSON text is read from front to back, each value as what is expected next, so that the first
fault in the text is the one that is reported. A fault lies where the reading stands when it is
noticed, or just after the byte that it is about (`peeked`).

**Results.**
* `skipSpace_idem`: after blanks are skipped there are none to skip.
* `byte?_skipSpace_not_space`: what stands there is no blank.
-/
namespace TextPager.Json

/-- A place in the text: the offset, and the bytes from there on. -/
structure Cursor where
  offset : Nat
  rest : Bytes
  deriving DecidableEq, Repr

namespace Cursor

def ofBytes (bs : Bytes) : Cursor := ⟨0, bs⟩

/-- The byte at the cursor. -/
def byte? (c : Cursor) : Option UInt8 := c.rest.head?

/-- The cursor after `n` bytes. -/
def drop (c : Cursor) (n : Nat) : Cursor := ⟨c.offset + min n c.rest.length, c.rest.drop n⟩

/-- A fault where the reading stands. -/
def fault {α : Type} (c : Cursor) (m : Malformed) : Except Fault α :=
  .error ⟨.malformed m, c.offset⟩

/-- A fault about the byte at the cursor. -/
def peeked {α : Type} (c : Cursor) (m : Malformed) : Except Fault α := (c.drop 1).fault m

def wrong {α : Type} (c : Cursor) (u : Unexpected) : Except Fault α :=
  .error ⟨.unexpected u, c.offset⟩

end Cursor

/-- A byte stands for an ASCII character. -/
def is (b : UInt8) (c : Char) : Bool := b.toNat == c.toNat

/-- The blanks of JSON: space, tab, newline and carriage return. -/
def isJsonSpace (b : UInt8) : Bool := is b ' ' || is b '\t' || is b '\n' || is b '\r'

def isDigitByte (b : UInt8) : Bool := '0'.toNat ≤ b.toNat && b.toNat ≤ '9'.toNat

def digitValue (b : UInt8) : Nat := b.toNat - '0'.toNat

/-- The cursor after blanks. -/
def skipSpace (c : Cursor) : Cursor :=
  ⟨c.offset + (c.rest.takeWhile isJsonSpace).length, c.rest.dropWhile isJsonSpace⟩

/-- What stands after the blanks is no blank. -/
theorem byte?_skipSpace_not_space {c : Cursor} {b : UInt8} (h : (skipSpace c).byte? = some b) :
    isJsonSpace b = false := by
  simp only [Cursor.byte?, skipSpace] at h
  have := List.head?_dropWhile_not isJsonSpace c.rest
  rw [h] at this
  simpa using this

/-- The rest of a word whose first letter has been read. -/
def readIdent (c : Cursor) : List Char → Except Fault Cursor
  | [] => .ok c
  | w :: ws => match c.byte? with
    | none => c.fault .endInValue
    | some b => if is b w then readIdent (c.drop 1) ws else (c.drop 1).fault .expectedIdent

/-! ## Strings -/

def hexValue? (b : UInt8) : Option Nat :=
  let n := b.toNat
  if isDigitByte b then some (digitValue b)
  else if 'a'.toNat ≤ n ∧ n ≤ 'f'.toNat then some (n - 'a'.toNat + 10)
  else if 'A'.toNat ≤ n ∧ n ≤ 'F'.toNat then some (n - 'A'.toNat + 10)
  else none

/-- The value of four hexadecimal digits. -/
def hex4? (a b c d : UInt8) : Option Nat := do
  let a ← hexValue? a
  let b ← hexValue? b
  let c ← hexValue? c
  let d ← hexValue? d
  some (((a * 16 + b) * 16 + c) * 16 + d)

/-- The character of a one-letter escape. -/
def simpleEscape? (b : UInt8) : Option Char :=
  if is b '"' then some '"'
  else if is b '\\' then some '\\'
  else if is b '/' then some '/'
  else if is b 'b' then some '\x08'
  else if is b 'f' then some '\x0c'
  else if is b 'n' then some '\n'
  else if is b 'r' then some '\r'
  else if is b 't' then some '\t'
  else none

def encodeChar (c : Char) : Bytes := String.utf8EncodeChar c

/-- The bytes of a string up to its closing quote, in reverse behind `acc`, and the cursor at the
quote. Characters beyond the first 65536 are escaped as two surrogates. -/
def stringBytes (offset : Nat) (acc : Bytes) : Bytes → Except Fault (Bytes × Cursor)
  | [] => (Cursor.mk offset []).fault .endInString
  | b :: rest =>
    if is b '"' then .ok (acc.reverse, ⟨offset, b :: rest⟩)
    else if is b '\\' then
      match rest with
      | [] => (Cursor.mk (offset + 1) []).fault .endInString
      | e :: rest =>
        if is e 'u' then
          match rest with
          | h1 :: h2 :: h3 :: h4 :: rest =>
            let after : Cursor := ⟨offset + 6, rest⟩
            match hex4? h1 h2 h3 h4 with
            | none => after.fault .invalidEscape
            | some n =>
              if 0xDC00 ≤ n ∧ n ≤ 0xDFFF then after.fault .loneSurrogate
              else if 0xD800 ≤ n ∧ n ≤ 0xDBFF then
                match rest with
                | [] => after.fault .endInString
                | [s] =>
                  if is s '\\' then (after.drop 1).fault .endInString
                  else (after.drop 1).fault .unfinishedSurrogate
                | s :: u :: rest =>
                  if !is s '\\' then (after.drop 1).fault .unfinishedSurrogate
                  else if !is u 'u' then (after.drop 2).fault .unfinishedSurrogate
                  else
                    match rest with
                    | l1 :: l2 :: l3 :: l4 :: rest =>
                      match hex4? l1 l2 l3 l4 with
                      | none => (after.drop 6).fault .invalidEscape
                      | some low =>
                        if low < 0xDC00 ∨ 0xDFFF < low then (after.drop 6).fault .loneSurrogate
                        else
                          let c := Char.ofNat ((n - 0xD800) * 0x400 + (low - 0xDC00) + 0x10000)
                          stringBytes (offset + 12) ((encodeChar c).reverse ++ acc) rest
                    | short => (Cursor.mk (offset + 8 + short.length) []).fault .endInString
              else
                stringBytes (offset + 6) ((encodeChar (Char.ofNat n)).reverse ++ acc) rest
          | short => (Cursor.mk (offset + 2 + short.length) []).fault .endInString
        else
          match simpleEscape? e with
          | some c => stringBytes (offset + 2) ((encodeChar c).reverse ++ acc) rest
          | none => (Cursor.mk (offset + 2) rest).fault .invalidEscape
    else if b.toNat < 0x20 then (Cursor.mk (offset + 1) rest).fault .controlInString
    else stringBytes (offset + 1) (b :: acc) rest

/-- A string whose opening quote has been read. Bytes that are no text are noticed at the closing
quote. -/
def readString (c : Cursor) : Except Fault (Text × Cursor) := do
  let (bs, closing) ← stringBytes c.offset [] c.rest
  match Utf8.decode? bs with
  | some t => .ok (t, closing.drop 1)
  | none => closing.fault .invalidUnicode

/-! ## Numbers -/

/-- A number as it is read: whole numbers of a machine word stay exact. -/
inductive Number where
  | nonneg (n : Nat)
  | negative (magnitude : Nat)
  | double (negative : Bool) (x : Double)
  deriving DecidableEq, Repr

/-- Digits added to a significand while it stays below a limit; what is left of them, and how
many were added. -/
def addDigits (limit : Nat) : Nat → Bytes → Nat × Bytes × Nat
  | significand, [] => (significand, [], 0)
  | significand, d :: ds =>
    let more := significand * 10 + digitValue d
    if more < limit then
      let (final, left, count) := addDigits limit more ds
      (final, left, count + 1)
    else (significand, d :: ds, 0)

/-- A power of ten as a number; the largest exponents of a single step fit. -/
def tenTo (n : Nat) : Double := (Double.ofNat (Nat.pow 10 n)).getD .zero

/-- The largest power of ten that is taken in one step. -/
def maxPower : Nat := 308

/-- Divided by a power of ten, the largest power at a time. -/
def divideByTen (x : Double) (n : Nat) : Double :=
  if n ≤ maxPower then (x.div (tenTo n)).getD .zero
  else if x.mantissa = 0 then x
  else divideByTen ((x.div (tenTo maxPower)).getD .zero) (n - maxPower)
termination_by n
decreasing_by simp only [maxPower] at *; omega

/-- `significand * 10 ^ exponent`; none if that is beyond the largest number. -/
def scaleByTen (significand : Nat) (exponent : Int) : Option Double :=
  let x := (Double.ofNat significand).getD .zero
  if exponent < 0 then some (divideByTen x exponent.natAbs)
  else if exponent.toNat ≤ maxPower then x.mul (tenTo exponent.toNat)
  else if x.mantissa = 0 then some x
  else none

/-- Exponents are kept below this number. -/
def exponentLimit : Nat := Nat.pow 2 31

def finishDouble (negative : Bool) (significand : Nat) (exponent : Int) (c : Cursor) :
    Except Fault (Number × Cursor) :=
  match scaleByTen significand exponent with
  | some x => .ok (.double negative x, c)
  | none => c.fault .numberOutOfRange

/-- The exponent of a number, from the letter on. -/
def readExponent (negative : Bool) (significand : Nat) (start : Int) (c : Cursor) :
    Except Fault (Number × Cursor) :=
  let c := c.drop 1
  let down := c.byte?.any fun b => is b '-'
  let c := if down || c.byte?.any (fun b => is b '+') then c.drop 1 else c
  match c.byte? with
  | none => c.fault .endInValue
  | some b =>
    if !isDigitByte b then (c.drop 1).fault .invalidNumber
    else
      let digits := c.rest.takeWhile isDigitByte
      let (power, left, count) := addDigits exponentLimit 0 digits
      if left.isEmpty then
        let exponent := if down then start - power else start + power
        finishDouble negative significand exponent (c.drop digits.length)
      else if significand ≠ 0 ∧ !down then (c.drop (count + 1)).fault .numberOutOfRange
      else .ok (.double negative .zero, c.drop digits.length)

/-- What may follow the digits of a number: an exponent, or nothing. -/
def readPower (negative : Bool) (significand : Nat) (exponent : Int) (c : Cursor) :
    Except Fault (Number × Cursor) :=
  if c.byte?.any (fun b => is b 'e' || is b 'E') then
    readExponent negative significand exponent c
  else finishDouble negative significand exponent c

/-- The places of a number, from the point on. Digits that the significand has no room for are
dropped. -/
def readFraction (negative : Bool) (significand : Nat) (exponent : Int) (c : Cursor) :
    Except Fault (Number × Cursor) :=
  let c := c.drop 1
  let digits := c.rest.takeWhile isDigitByte
  match digits with
  | [] => c.peeked (if c.rest.isEmpty then .endInValue else .invalidNumber)
  | _ =>
    let (final, _, count) := addDigits wordLimit significand digits
    readPower negative final (exponent - count) (c.drop digits.length)

/-- A number, after its sign. A significand beyond a machine word makes it a double, as a fraction
or an exponent does; so does a negative zero or a negative number beyond half a word. -/
def readNumber (negative : Bool) (c : Cursor) : Except Fault (Number × Cursor) :=
  match c.byte? with
  | none => c.fault .endInValue
  | some b =>
    if !isDigitByte b then (c.drop 1).fault .invalidNumber
    else
      let digits := if is b '0' then [b] else c.rest.takeWhile isDigitByte
      let after := c.drop digits.length
      if is b '0' && after.byte?.any isDigitByte then after.peeked .invalidNumber
      else
        let (significand, left, _) := addDigits wordLimit 0 digits
        if after.byte?.any fun b => is b '.' then
          readFraction negative significand left.length after
        else if after.byte?.any (fun b => is b 'e' || is b 'E') || !left.isEmpty then
          readPower negative significand left.length after
        else if !negative then .ok (.nonneg significand, after)
        else if 1 ≤ significand ∧ significand ≤ Nat.pow 2 63 then .ok (.negative significand, after)
        else finishDouble true significand 0 after

def Number.found : Number → Found
  | nonneg n => .integer false n
  | negative n => .integer true n
  | double minus x => .float ((if minus then ['-'] else []) ++ x.text)

/-! ## Expected values -/

/-- The fault of a value that is not what was expected. Scalars are read to their end; lists and
objects are not read at all. -/
def refuse {α : Type} (expected : String) (c : Cursor) : Except Fault α :=
  let found (f : Found) (c : Cursor) : Except Fault α := c.wrong (.wrongType f expected)
  match c.byte? with
  | none => c.peeked .expectedValue
  | some b =>
    if is b 'n' then do found .null (← readIdent (c.drop 1) "ull".toList)
    else if is b 't' then do found (.boolean true) (← readIdent (c.drop 1) "rue".toList)
    else if is b 'f' then do found (.boolean false) (← readIdent (c.drop 1) "alse".toList)
    else if is b '-' then do
      let (n, c) ← readNumber true (c.drop 1)
      found n.found c
    else if isDigitByte b then do
      let (n, c) ← readNumber false c
      found n.found c
    else if is b '"' then do
      let (t, c) ← readString (c.drop 1)
      found (.string t) c
    else if is b '[' then found .sequence c
    else if is b '\x7b' then found .map c
    else c.peeked .expectedValue

/-- A whole number below a limit. -/
def readNat (limit : Nat) (expected : String) (c : Cursor) : Except Fault (Nat × Cursor) := do
  let c := skipSpace c
  let number (r : Number × Cursor) : Except Fault (Nat × Cursor) :=
    match r.1 with
    | .nonneg n =>
      if n < limit then .ok (n, r.2) else r.2.wrong (.wrongValue (.integer false n) expected)
    | .negative n => r.2.wrong (.wrongValue (.integer true n) expected)
    | n => r.2.wrong (.wrongType n.found expected)
  match c.byte? with
  | none => c.peeked .endInValue
  | some b =>
    if is b '-' then number (← readNumber true (c.drop 1))
    else if isDigitByte b then number (← readNumber false c)
    else refuse expected c

/-- A string. -/
def readText (expected : String) (c : Cursor) : Except Fault (Text × Cursor) :=
  let c := skipSpace c
  match c.byte? with
  | none => c.peeked .endInValue
  | some b => if is b '"' then readString (c.drop 1) else refuse expected c

/-- Nothing, or a value. -/
def readOption {α : Type} (value : Cursor → Except Fault (α × Cursor)) (c : Cursor) :
    Except Fault (Option α × Cursor) := do
  let c := skipSpace c
  if c.byte?.any fun b => is b 'n' then
    return (none, ← readIdent (c.drop 1) "ull".toList)
  let (a, c) ← value c
  return (some a, c)

/-- One of several names, whose opening quote has been read. -/
def readName {α : Type} (choices : List α) (name : α → String) (c : Cursor) :
    Except Fault (α × Cursor) := do
  let (t, c) ← readString c
  match choices.find? fun a => (name a).toList == t with
  | some a => return (a, c)
  | none => c.wrong (.unknownVariant t (choices.map name))

/-- The colon between a key and its value. -/
def readColon (c : Cursor) : Except Fault Cursor :=
  let c := skipSpace c
  match c.byte? with
  | none => c.peeked .endInObject
  | some b => if is b ':' then .ok (c.drop 1) else c.peeked .expectedColon

/-- Nothing, as the value of a name that carries none. -/
def readNull (c : Cursor) : Except Fault Cursor :=
  let c := skipSpace c
  match c.byte? with
  | none => c.peeked .endInValue
  | some b => if is b 'n' then readIdent (c.drop 1) "ull".toList else refuse "unit" c

/-- One of several names, as the one key of an object whose value is null; the brace has been
read. -/
def readKeyedName {α : Type} (choices : List α) (name : α → String) (c : Cursor) :
    Except Fault (α × Cursor) := do
  let c := skipSpace c
  match c.byte? with
  | none => c.peeked .endInValue
  | some b =>
    if is b '"' then
      let (a, c) ← readName choices name (c.drop 1)
      let c := skipSpace (← readNull (← readColon c))
      match c.byte? with
      | none => c.fault .endInObject
      | some b => if is b '\x7d' then return (a, c.drop 1) else c.fault .expectedValue
    else c.peeked (if is b '\x7d' then .expectedValue else .keyNotString)

/-- One of several names: a string, or an object whose one key is the name and whose value is
null. -/
def readChoice {α : Type} (choices : List α) (name : α → String) (c : Cursor) :
    Except Fault (α × Cursor) :=
  let c := skipSpace c
  match c.byte? with
  | none => c.peeked .endInValue
  | some b =>
    if is b '"' then readName choices name (c.drop 1)
    else if is b '\x7b' then readKeyedName choices name (c.drop 1)
    else c.peeked .expectedValue

/-! ## Blanks -/

theorem skipSpace_idem (c : Cursor) : skipSpace (skipSpace c) = skipSpace c := by
  have h : (skipSpace c).rest.dropWhile isJsonSpace = (skipSpace c).rest ∧
      (skipSpace c).rest.takeWhile isJsonSpace = [] := by
    cases hr : (skipSpace c).rest with
    | nil => exact ⟨rfl, rfl⟩
    | cons b bs =>
      have := byte?_skipSpace_not_space (c := c) (b := b) (by rw [Cursor.byte?, hr]; rfl)
      simp [this]
  rw [skipSpace, h.1, h.2]
  rfl

end TextPager.Json
