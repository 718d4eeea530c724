import Hazard.Files.Basic

set_option autoImplicit false

/-! # File trees

Files and directories held in memory, by their paths from the root. The directories around an
entry are there without being listed. A path can also lead above the root, to directories of which
nothing is known but what has been written there. -/

namespace Hazard

/-- Why a path leads to no file. -/
inductive PathError where
  /-- Nothing has that name. -/
  | missing
  /-- A part of the path that has to be a directory is a file. -/
  | notDirectory
  | isDirectory
  /-- The path, or a name in it, is longer than any can be. -/
  | nameTooLong
  /-- The path has a null character, which no path can have. -/
  | nullInPath
  deriving DecidableEq, Repr

namespace PathError

/-- The wording of the errors. -/
def message (e : PathError) (path : String) : String :=
  match e with
  | missing => s!"[Errno 2] No such file or directory: {Text.quoted path}"
  | notDirectory => s!"[Errno 20] Not a directory: {Text.quoted path}"
  | isDirectory => s!"[Errno 21] Is a directory: {Text.quoted path}"
  | nameTooLong => s!"[Errno 36] File name too long: {Text.quoted path}"
  | nullInPath => "embedded null byte"

/-- The kind of failure that an error is. -/
def kind : PathError → String
  | missing => "FileNotFoundError"
  | notDirectory => "NotADirectoryError"
  | isDirectory => "IsADirectoryError"
  | nameTooLong => "OSError"
  | nullInPath => "ValueError"

/-- What an error is to those who want to read the file. -/
def toFileError (e : PathError) (path : String) : FileError :=
  match e with
  | missing => .missing
  | nullInPath => .fault (.withMessage e.kind (e.message path))
  | e => .refused (e.message path)

end PathError

/-- A file with its content, or a directory. -/
inductive FileEntry where
  | file (content : List UInt8)
  | directory
  deriving DecidableEq, Repr

/-- A path without detours, one name after the other. Steps above the root come first. -/
abbrev Path := List String

/-- Entries by their paths. -/
abbrev FileTree := List (Path × FileEntry)

namespace FileTree

/-- The name of the directory around a directory. -/
def parentName : String := ".."

/-- How many bytes a name can have. -/
def nameLimit : Nat := 255

/-- How many bytes a path can have. -/
def pathLimit : Nat := 4095

/-- The names in a path. -/
def split (path : String) : List String := path.splitOn "/"

/-- Whether a name leads to where it is looked up. -/
def staysHere (name : String) : Bool := name == "" || name == "."

/-- The entry at a path without detours. -/
def entry? (t : FileTree) (path : Path) : Option FileEntry :=
  match t.lookup path with
  | some e => some e
  | none =>
    if path.all (· == parentName) || t.any (fun (p, _) => p.take path.length == path) then
      some .directory
    else none

/-- The directory around a directory. -/
def parent (path : Path) : Path :=
  if path.all (· == parentName) then path ++ [parentName] else path.dropLast

/-- Checks that there is a directory at a path. -/
def requireDirectory (t : FileTree) (path : Path) : Except PathError Unit :=
  match t.entry? path with
  | none => throw .missing
  | some (.file _) => throw .notDirectory
  | some .directory => return

/-- Looks a name up in the directory at a path. What it leads to need not be there. -/
def step (t : FileTree) (path : Path) (name : String) : Except PathError Path := do
  t.requireDirectory path
  if staysHere name then return path
  else if name == parentName then return parent path
  else if nameLimit < name.utf8ByteSize then throw .nameTooLong
  else return path ++ [name]

/-- Follows names from the root. -/
def follow (t : FileTree) (names : List String) : Except PathError Path := names.foldlM t.step []

/-- Checks what every path has to be like. -/
def checkPath (path : String) : Except PathError Unit :=
  if path.contains '\x00' then throw .nullInPath
  else if path.isEmpty then throw .missing
  else if pathLimit < path.utf8ByteSize then throw .nameTooLong
  else return

/-- The content of a file. -/
def content (t : FileTree) (path : String) : Except PathError (List UInt8) := do
  checkPath path
  match t.entry? (← t.follow (split path)) with
  | none => throw .missing
  | some .directory => throw .isDirectory
  | some (.file content) => return content

/-- What reading a path gives. -/
def read (t : FileTree) : Files := fun path => (t.content path).mapError (·.toFileError path)

/-- The place of a file that is to be written. Only its last name can be missing. A path that ends
    like that of a directory is not the path of a file. -/
def placeFor (t : FileTree) (path : String) : Except PathError Path := do
  checkPath path
  let names := split path
  let front := (names.reverse.dropWhile (· == "")).reverse
  let place ← t.follow front.dropLast
  t.requireDirectory place
  let last := front.getLast?.getD ""
  if staysHere last || last == parentName || front.length != names.length then throw .isDirectory
  t.step place last

/-- Writes a file, which may be new. -/
def write (t : FileTree) (path : String) (content : List UInt8) : Except PathError FileTree := do
  let place ← t.placeFor path
  match t.entry? place with
  | some .directory => throw .isDirectory
  | some (.file _) => return t.map fun (p, e) => if p == place then (p, .file content) else (p, e)
  | none => return t ++ [(place, .file content)]

end FileTree

end Hazard
