import TextPager.Files

/-!
# Documents

A document is the text of a file under the file's name. A carriage return before a newline is
dropped, and bytes that are no text are replaced.

**Results.**
* `unixLines_of_not_mem`: a text without carriage returns stays as it is.
-/
namespace TextPager

structure Document where
  title : Text
  text : Text
  deriving DecidableEq, Repr

/-- Why a document cannot be read. -/
inductive DocumentError where
  | isDirectory (path : Text)
  | missing (path : Text)
  | unreadable (path : Text) (e : FileError)
  deriving DecidableEq, Repr

/-- What went wrong, and why where that is told apart. -/
def DocumentError.message : DocumentError → Text × Option Text
  | isDirectory path => (path ++ " is a directory.".toList, none)
  | missing path => ("File ".toList ++ path ++ " does not exist.".toList, none)
  | unreadable path e => ("read ".toList ++ path, some e.message)

/-- A text whose lines end in a newline alone, made in one pass. -/
def unixLines : Text → Text
  | [] => []
  | '\r' :: '\n' :: t => '\n' :: unixLines t
  | c :: t => c :: unixLines t

/-- The text of a file. -/
def textOfBytes (bs : Bytes) : Text := unixLines (Utf8.decodeLossy bs)

/-- The name a path ends in. -/
def fileName (path : Text) : Text :=
  ((path.piecesAt '/').filter fun name => !name.isEmpty).getLast?.getD path

/-- Reads a document. -/
def Document.load {m : Type → Type} [Monad m] (fs : FileSystem m) (path : Text) :
    ExceptT DocumentError m Document := do
  if ← fs.isDirectory path then throw (.isDirectory path)
  if !(← fs.pathExists path) then throw (.missing path)
  match ← fs.read path with
  | .ok bs => return ⟨fileName path, textOfBytes bs⟩
  | .error e => throw (.unreadable path e)

/-- A text without carriage returns stays as it is. -/
theorem unixLines_of_not_mem {t : Text} (h : '\r' ∉ t) : unixLines t = t := by
  fun_induction unixLines t with
  | case1 => rfl
  | case2 => simp at h
  | case3 c t _ ih => rw [ih fun hc => h (List.mem_cons_of_mem _ hc)]

end TextPager
