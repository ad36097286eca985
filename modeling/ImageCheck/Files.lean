/-
# Files

`SPEC_FULL` §6; the files that `read_clause_file` and `load_from_file` read.

Reading a text file fails in a few ways that the program tells apart. A directory
can also be given as a value, so that what the program does with its files is a
function. A path is then walked name by name from that directory: `.` and empty
names stay where they are, `..` goes back, and only a directory can be walked on
from. Above the directory there are directories of which nothing is known.

* `Directory.read`: the text of a file in a directory that is a value.
-/

namespace ImageCheck

/-- Why a text file cannot be read. -/
inductive FileError where
  /-- There is no file with that path. -/
  | notFound
  /-- The path is that of a directory. -/
  | isDirectory
  /-- The path goes on after a file. -/
  | notDirectory
  /-- The path, or a name in it, has more bytes than the system allows. -/
  | nameTooLong
  /-- The path holds a character that no path may hold. -/
  | invalidPath
  /-- The bytes of the file are no UTF-8. -/
  | notText
  /-- The system says something else. -/
  | other (text : String)
  deriving DecidableEq, Repr

/-- The wording of a failure. -/
def FileError.message : FileError → String
  | notFound => "No such file or directory (os error 2)"
  | isDirectory => "Is a directory (os error 21)"
  | notDirectory => "Not a directory (os error 20)"
  | nameTooLong => "File name too long (os error 36)"
  | invalidPath => "file name contained an unexpected NUL byte"
  | notText => "stream did not contain valid UTF-8"
  | other text => text

/-- A way to read text files by path. -/
abbrev Files := String → Except FileError String

/-- The names in a path, from left to right. -/
def pathNames (path : String) : List String :=
  (path.toList.splitOn '/').map String.ofList

/-- A directory as a value: paths of files, relative to it, with their bytes. -/
structure Directory where
  /-- The files. -/
  files : List (String × ByteArray)

namespace Directory

/-- The most bytes of a path. -/
def maxPathBytes : Nat := 4095

/-- The most bytes of a name in a path. -/
def maxNameBytes : Nat := 255

/-- Where the walk along a path has come to. -/
inductive Place where
  /-- At a directory that lies above the given one. -/
  | above
  /-- At the given directory or one inside it, with the names that lead there. -/
  | inside (names : List String)
  /-- At a file. -/
  | file (bytes : ByteArray)

/-- The place at the end of names inside the directory, where there is one. -/
def locate (d : Directory) (names : List String) : Except FileError Place :=
  match d.files.find? fun file => pathNames file.1 = names with
  | some file => .ok (.file file.2)
  | none =>
    if d.files.any fun file => names.isPrefixOf (pathNames file.1) then .ok (.inside names)
    else .error .notFound

/-- Walks on by one name. -/
def walk (d : Directory) (place : Place) (name : String) : Except FileError Place :=
  match place with
  | .file _ => .error .notDirectory
  | .above =>
    if name = "" ∨ name = "." ∨ name = ".." then .ok .above
    else if maxNameBytes < name.utf8ByteSize then .error .nameTooLong
    else .error .notFound
  | .inside names =>
    if name = "" ∨ name = "." then .ok place
    else if name = ".." then .ok (if names.isEmpty then .above else .inside names.dropLast)
    else if maxNameBytes < name.utf8ByteSize then .error .nameTooLong
    else d.locate (names ++ [name])

/-- The place where a path leads. -/
def follow (d : Directory) (path : String) : Except FileError Place :=
  if '\x00' ∈ path.toList then .error .invalidPath
  else if path = "" then .error .notFound
  else if maxPathBytes < path.utf8ByteSize then .error .nameTooLong
  else
    let start := if path.toList.head? = some '/' then .above else .inside []
    (pathNames path).foldlM d.walk start

/-- The text of a file. -/
def read (d : Directory) : Files := fun path =>
  match d.follow path with
  | .error e => .error e
  | .ok (.file bytes) =>
    match String.fromUTF8? bytes with
    | some text => .ok text
    | none => .error .notText
  | .ok _ => .error .isDirectory

end Directory
end ImageCheck
