/-!
# Files

The tool reads files by their paths, and reports why one cannot be read.  A `Folder` holds files in
memory.

## Main definitions

* `ReadFailure` — why a file cannot be read.
* `ReadFile` — how files are read.
* `sibling?` — the path of a file next to another one.
* `Folder.read` — a file that is held in memory.
-/

namespace StepScript

/-- Why a file cannot be read. -/
inductive ReadFailure
  /-- There is none. -/
  | missing
  /-- The path leads through a file. -/
  | notDirectory
  /-- It is a directory. -/
  | isDirectory
  /-- It does not hold text. -/
  | notText
  /-- Something else. -/
  | other (reason : String)
  deriving DecidableEq, Repr

namespace ReadFailure

/-- The message for a failure. -/
def message : ReadFailure → String
  | missing => "No such file or directory (os error 2)"
  | notDirectory => "Not a directory (os error 20)"
  | isDirectory => "Is a directory (os error 21)"
  | notText => "stream did not contain valid UTF-8"
  | other reason => reason

/-- Whether the failure means that there is no file at the path. -/
def isAbsence : ReadFailure → Bool
  | missing => true
  | notDirectory => true
  | isDirectory => true
  | _ => false

end ReadFailure

/-- How files are read. -/
abbrev ReadFile (m : Type → Type) :=
  String → m (Except ReadFailure String)

/-! ### Paths -/

/-- The parts of a path without those at the end that lead nowhere. -/
def trimParts (parts : List String) : List String :=
  (parts.reverse.dropWhile fun part => part == "" || part == ".").reverse

/-- The beginning of a path that is no part of its own: a leading slash, or a leading dot. -/
def pathRoot (path : String) : String :=
  if path.startsWith "/" then "/"
  else if path = "." ∨ path.startsWith "./" then "."
  else ""

/-- The directory that a path lies in. -/
def parentPath? (path : String) : Option String :=
  let root := pathRoot path
  match trimParts ((String.ofList (path.toList.drop root.length)).splitOn "/") with
  | [] => if root = "." then some "" else none
  | parts => some (root ++ "/".intercalate (trimParts parts.dropLast))

/-- The path of a file in a directory. -/
def joinPath (directory name : String) : String :=
  if directory.isEmpty ∨ directory.endsWith "/" then directory ++ name
  else directory ++ "/" ++ name

/-- The path of the file with the given name next to another one. -/
def sibling? (path name : String) : Option String :=
  (parentPath? path).map fun directory => joinPath directory name

/-! ### Files in memory -/

/-- Files with their paths from the working directory, and their bytes. -/
structure Folder where
  /-- Paths, as lists of names, and bytes. -/
  files : List (List String × ByteArray)

namespace Folder

/-- Whether a list of names leads to a directory. -/
def isDirectory (f : Folder) (names : List String) : Bool :=
  names.isEmpty || f.files.any fun (path, _) => names.isPrefixOf path && path != names

/-- Whether a list of names leads to a file. -/
def isFile (f : Folder) (names : List String) : Bool :=
  (f.files.lookup names).isSome

/-- Follows the parts of a path, from the directory with the given names. -/
def follow (f : Folder) : List String → List String → Except ReadFailure (List String)
  | names, [] => .ok names
  | names, part :: parts =>
    if f.isFile names then .error .notDirectory
    else if !f.isDirectory names then .error .missing
    else if part == "" || part == "." then follow f names parts
    else if part == ".." then follow f names.dropLast parts
    else follow f (names ++ [part]) parts

/-- The text of a file. -/
def read (f : Folder) (path : String) : Except ReadFailure String := do
  if path.isEmpty then .error .missing
  let names ← f.follow [] (path.splitOn "/")
  match f.files.lookup names with
  | some bytes =>
    match String.fromUTF8? bytes with
    | some text => .ok text
    | none => .error .notText
  | none => .error (if f.isDirectory names then .isDirectory else .missing)

/-- A folder from paths and bytes. -/
def ofPairs (pairs : List (String × ByteArray)) : Folder :=
  ⟨pairs.map fun (path, bytes) =>
    ((path.splitOn "/").filter fun part => part != "" && part != ".", bytes)⟩

end Folder

end StepScript
