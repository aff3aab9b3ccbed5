import TextPager.Config.File
import TextPager.Document

/-!
# The program

A run reads its command line, makes the log file if one was asked for, resolves its configuration,
reads the document and prints its pages without styles. Pages are separated by a line of one form
feed. The first thing that goes wrong ends the run with a report.

**Results.**
* `printed_singleton`: a single page is printed as its lines.
* `Program.run_usage`: a command line that is refused ends the run with code 2.
-/
namespace TextPager

/-- The line between two pages. -/
def pageBreak : Text := ['\x0c', '\n']

/-- Pages as they are printed. -/
def printed (pages : List Page) : Text := List.intercalate pageBreak (pages.map Text.ended)

theorem printed_singleton (p : Page) : printed [p] = Text.ended p := by
  simp [printed]

/-- Why there is no configuration. -/
inductive ConfigError where
  | unreadable (path : Text) (e : FileError)
  | faulty (path : Text) (contents : Bytes) (fault : Json.Fault)
  | refused (r : ConfigRefusal)

/-- What went wrong, and why where that is told apart. -/
def ConfigError.message : ConfigError → Text × Option Text
  | unreadable path e => ("read config ".toList ++ path, some e.message)
  | faulty path contents fault =>
    ("parse config JSON ".toList ++ path, some (fault.message contents))
  | refused r => r.message

/-- Why a run fails. -/
inductive ProgramError where
  | log (path : Text) (e : FileError)
  | config (e : ConfigError)
  | document (e : DocumentError)

/-- What went wrong, and why where that is told apart. -/
def ProgramError.message : ProgramError → Text × Option Text
  | log path e => ("create log file ".toList ++ path, some e.message)
  | config e => e.message
  | document e => e.message

/-- The report of a failed run. Every line of the cause is indented. -/
def ProgramError.report (e : ProgramError) : Text :=
  let (top, cause) := e.message
  let indented (t : Text) := Text.joinLines ((t.piecesAt '\n').map (Text.spaces 4 ++ ·))
  "Error: ".toList ++ top ++ ['\n'] ++
    match cause with
    | none => []
    | some c => "\nCaused by:\n".toList ++ indented c ++ ['\n']

/-- How a run ends. -/
structure Outcome where
  code : Nat
  stdout : Text
  stderr : Text
  deriving DecidableEq, Repr

namespace Program

def name : String := "clireader"

def version : String := "0.1.0"

def usage : Text := ("Usage: " ++ name ++ " [OPTIONS] <FILE>\n").toList

def help : Text :=
  "Page through text files and man pages in the terminal\n\n".toList ++ usage ++
  ("\nArguments:\n" ++
    "  <FILE>  Text or man file to read\n\n" ++
    "Options:\n" ++
    "      --wrap <MODE>           Initial wrap mode\n" ++
    "      --frame <KIND>          Frame drawn around the page\n" ++
    "      --custom-frame <CHARS>  Fourteen frame characters\n" ++
    "      --config <PATH>         JSON config file\n" ++
    "      --log-file <PATH>       Write logs to this file\n" ++
    "      --print                 Write the pages to stdout instead of opening the viewer\n" ++
    "      --height <N>            Lines per page\n" ++
    "      --width <N>             Columns per line\n" ++
    "  -h, --help                  Print help\n" ++
    "  -V, --version               Print version\n").toList

variable {m : Type → Type} [Monad m]

/-- The configuration a command line asks for. -/
def resolve (fs : FileSystem m) (l : CommandLine) : ExceptT ConfigError m Config := do
  let base ← match l.config with
    | none => pure Config.initial
    | some path => match ← fs.read path with
      | .error e => throw (.unreadable path e)
      | .ok bs => match Config.ofJson bs with
        | .error fault => throw (.faulty path bs fault)
        | .ok c => pure c
  match base.resolve l with
  | .error r => throw (.refused r)
  | .ok c => return c

/-- The pages a command line asks for, as they are printed. -/
def pages (fs : FileSystem m) (l : CommandLine) : ExceptT ProgramError m Text := do
  if let some path := l.logFile then
    if let .error e ← fs.create path then throw (.log path e)
  let config ← (resolve fs l).adapt .config
  let document ← (Document.load fs l.file).adapt .document
  return printed (config.printer document.title document.text).pages

/-- Runs the program on its arguments. -/
def run (fs : FileSystem m) (args : List Text) : m Outcome := do
  match CommandLine.parse args with
  | .error .help => return ⟨0, help, []⟩
  | .error .version => return ⟨0, (name ++ " " ++ version ++ "\n").toList, []⟩
  | .error _ => return ⟨2, [], usage⟩
  | .ok l => match ← (pages fs l).run with
    | .ok text => return ⟨0, text, []⟩
    | .error e => return ⟨1, [], e.report⟩

/-- A command line that is refused ends the run with code 2. -/
theorem run_usage (fs : FileSystem m) {args : List Text} {stop : CommandLineStop}
    (h : CommandLine.parse args = .error stop) (hh : stop ≠ .help) (hv : stop ≠ .version) :
    run fs args = pure ⟨2, [], usage⟩ := by
  cases stop <;> simp_all [run]

end Program

end TextPager
