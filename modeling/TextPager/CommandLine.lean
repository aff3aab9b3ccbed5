import TextPager.Reflow
import TextPager.Viewer.Frame

/-!
# The command line

The command line names the document to read and may set options. An option that takes a value
takes it after an equals sign or as the next argument, unless that argument begins with a dash; a
value given as the next argument is only looked at when the next option or document is reached, or
the line ends. After a bare double dash every argument is a document.

**Results.**
* `OptionName.ofFlag?_flag`: an option is found by its flag.
* `parse_nil`: the document is required.
-/
namespace TextPager

/-- Options that take a value. -/
inductive OptionName where
  | wrap | frame | customFrame | config | logFile | height | width
  deriving DecidableEq, Repr

namespace OptionName

def all : List OptionName := [wrap, frame, customFrame, config, logFile, height, width]

/-- The name after the double dash. -/
def flag : OptionName → String
  | wrap => "wrap"
  | frame => "frame"
  | customFrame => "custom-frame"
  | config => "config"
  | logFile => "log-file"
  | height => "height"
  | width => "width"

def ofFlag? (t : Text) : Option OptionName := all.find? fun o => o.flag.toList == t

theorem ofFlag?_flag (o : OptionName) : ofFlag? o.flag.toList = some o := by
  cases o <;> decide

end OptionName

/-- What the command line asks for. -/
structure CommandLine where
  file : Text
  wrap : Option WrapMode
  frame : Option FrameKind
  customFrame : Option Text
  config : Option Text
  logFile : Option Text
  print : Bool
  height : Option Nat
  width : Option Nat
  deriving DecidableEq, Repr

/-- Why a command line does not start the reader. -/
inductive CommandLineStop where
  | help | version
  | missingFile
  /-- A value that is missing, empty where that names nothing, or none of the choices. -/
  | invalidValue
  | unknownArgument
  /-- Two arguments that exclude each other, or one given twice. -/
  | conflict
  /-- A value that is no number. -/
  | notANumber
  /-- A value for an option that takes none. -/
  | needlessValue
  deriving DecidableEq, Repr

/-- Names on the command line: an underscore of a configuration name becomes a dash. -/
def dashed (name : String) : Text := name.toList.map fun c => if c = '_' then '-' else c

/-- Two names are the same, or the same but for the case of ASCII letters. -/
def sameName (ignoreCase : Bool) (a b : Text) : Bool :=
  if ignoreCase then a.map Char.toLower == b.map Char.toLower else a == b

/-- The names of a wrap mode on the command line. -/
def WrapMode.flags (m : WrapMode) : List Text :=
  dashed m.name :: if m = .noWrap then ["no_wrap".toList, "none".toList] else []

def WrapMode.ofFlag? (ignoreCase : Bool) (t : Text) : Option WrapMode :=
  WrapMode.all.find? fun m => m.flags.any (sameName ignoreCase · t)

def FrameKind.ofFlag? (ignoreCase : Bool) (t : Text) : Option FrameKind :=
  FrameKind.all.find? fun k => sameName ignoreCase (dashed k.name) t

namespace CommandLine

/-- What has been read of a command line: everything but that there is a document. -/
structure Draft where
  file : Option Text
  wrap : Option WrapMode
  frame : Option FrameKind
  customFrame : Option Text
  config : Option Text
  logFile : Option Text
  print : Bool
  height : Option Nat
  width : Option Nat

def Draft.empty : Draft := ⟨none, none, none, none, none, none, false, none, none⟩

/-- An argument whose value has not been looked at. -/
inductive Pending where
  | option (name : OptionName) (value : Option Text)
  | file (path : Text)

/-- A path; the empty text names none. -/
def path (t : Text) : Except CommandLineStop Text :=
  if t.isEmpty then .error .invalidValue else .ok t

def number (t : Text) : Except CommandLineStop Nat :=
  match t.number? with
  | some n => .ok n
  | none => .error .notANumber

def choice {α : Type} : Option α → Except CommandLineStop α
  | some a => .ok a
  | none => .error .invalidValue

/-- A value for an argument that has none yet. -/
def once {α : Type} (old : Option α) (value : Except CommandLineStop α) :
    Except CommandLineStop (Option α) :=
  match old with
  | some _ => .error .conflict
  | none => value.map some

/-- Sets an option. -/
def Draft.set (p : Draft) (t : Text) : OptionName → Except CommandLineStop Draft
  | .wrap => do return { p with wrap := ← once p.wrap (choice (WrapMode.ofFlag? false t)) }
  | .frame => do return { p with frame := ← once p.frame (choice (FrameKind.ofFlag? false t)) }
  | .customFrame => do return { p with customFrame := ← once p.customFrame (.ok t) }
  | .config => do return { p with config := ← once p.config (path t) }
  | .logFile => do return { p with logFile := ← once p.logFile (path t) }
  | .height => do return { p with height := ← once p.height (number t) }
  | .width => do return { p with width := ← once p.width (number t) }

/-- Looks at the argument that is pending. -/
def settle (p : Draft) : Option Pending → Except CommandLineStop Draft
  | none => .ok p
  | some (.option _ none) => .error .invalidValue
  | some (.option o (some t)) => p.set t o
  | some (.file f) => do return { p with file := ← once p.file (path f) }

/-- The flag and the value of an argument that begins with a double dash. -/
def splitFlag (t : Text) : Text × Option Text :=
  match t.dropWhile (· != '=') with
  | [] => (t, none)
  | _ :: value => (t.takeWhile (· != '='), some value)

/-- A flag that takes no value. -/
def bare (p : Draft) (pending : Option Pending) (value : Option Text)
    (act : Draft → Except CommandLineStop Draft) : Except CommandLineStop Draft :=
  if value.isSome then .error .needlessValue else (settle p pending).bind act

/-- An argument that begins with a double dash, without the dashes. -/
def readLong (p : Draft) (pending : Option Pending) (t : Text) :
    Except CommandLineStop (Draft × Option Pending) := do
  let (flag, value) := splitFlag t
  match OptionName.ofFlag? flag with
  | some o =>
    let p ← settle p pending
    match value with
    | some v => return (← p.set v o, none)
    | none => return (p, some (.option o none))
  | none =>
    let act : Draft → Except CommandLineStop Draft ←
      if flag = "print".toList then
        pure fun p => if p.print then .error .conflict else .ok { p with print := true }
      else if flag = "help".toList then pure fun _ => .error .help
      else if flag = "version".toList then pure fun _ => .error .version
      else .error .unknownArgument
    return (← bare p pending value act, none)

/-- An argument that is no option: the value of the option before it, or the document. -/
def readPlain (p : Draft) (pending : Option Pending) (isValue : Bool) (t : Text) :
    Except CommandLineStop (Draft × Option Pending) :=
  match pending, isValue with
  | some (.option o none), true => .ok (p, some (.option o (some t)))
  | pending, _ =>
    let named := p.file.isSome || match pending with
      | some (.file _) => true
      | _ => false
    if named then .error .unknownArgument
    else do return (← settle p pending, some (.file t))

/-- Reads arguments; `ended` after a bare double dash. -/
def readArguments : Bool → Draft → Option Pending → List Text → Except CommandLineStop Draft
  | _, p, pending, [] => settle p pending
  | true, p, pending, t :: ts => do
    let (p, pending) ← readPlain p pending false t
    readArguments true p pending ts
  | false, p, pending, t :: ts => do
    match t with
    | ['-', '-'] => readArguments true p pending ts
    | '-' :: '-' :: flag =>
      let (p, pending) ← readLong p pending flag
      readArguments false p pending ts
    | '-' :: c :: _ =>
      if c = 'h' then (settle p pending).bind fun _ => .error .help
      else if c = 'V' then (settle p pending).bind fun _ => .error .version
      else .error .unknownArgument
    | _ =>
      let (p, pending) ← readPlain p pending true t
      readArguments false p pending ts

/-- Reads a command line, the program's name not included. -/
def parse (args : List Text) : Except CommandLineStop CommandLine := do
  let p ← readArguments false .empty none args
  if p.frame.isSome && p.customFrame.isSome then .error .conflict
  match p.file with
  | none => .error .missingFile
  | some file =>
    return { file := file, wrap := p.wrap, frame := p.frame, customFrame := p.customFrame,
             config := p.config, logFile := p.logFile, print := p.print, height := p.height,
             width := p.width }

/-- The document is required. -/
theorem parse_nil : parse [] = .error .missingFile := rfl

end CommandLine

end TextPager
