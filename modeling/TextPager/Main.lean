import TextPager.Program

/-!
# The command

Runs the program on the files of the system and prints its pages.
-/
namespace TextPager

/-- A system error as a reason. -/
def FileError.ofSystem : IO.Error → FileError
  | .noFileOrDirectory .. => .notFound
  | .inappropriateType _ 21 _ => .isADirectory
  | .inappropriateType .. => .notADirectory
  | e => .other e.toString.toList

/-- An action of the system with its errors as reasons. -/
def attempt {α : Type} (action : IO α) : IO (Except FileError α) := do
  try return .ok (← action) catch e => return .error (.ofSystem e)

/-- The files of the system. -/
def systemFiles : FileSystem IO where
  isDirectory path := do
    let first ← attempt do (← IO.FS.Handle.mk (String.ofList path) .read).read 1
    return first matches .error .isADirectory
  pathExists path := do
    match ← attempt (IO.FS.Handle.mk (String.ofList path) .read) with
    | .ok _ => return true
    | .error e => return e != .notFound && e != .notADirectory
  read path := do
    match ← attempt (IO.FS.readBinFile (String.ofList path)) with
    | .ok bytes => return .ok bytes.toList
    | .error e => return .error e
  create path := do
    match ← attempt (IO.FS.Handle.mk (String.ofList path) .write) with
    | .ok _ => return .ok ()
    | .error e => return .error e

end TextPager

def main (args : List String) : IO UInt32 := do
  let outcome ← TextPager.Program.run TextPager.systemFiles (args.map String.toList)
  IO.print (String.ofList outcome.stdout)
  IO.eprint (String.ofList outcome.stderr)
  return outcome.code.toUInt32
