import TrainingJobs.SortedTable

/-!
# Files

A `Directory` is a directory of files as a program finds it: a path leads to a file of it, to a directory, or nowhere.
-/

namespace TrainingJobs

/-- Why a file cannot be read or written. -/
inductive FileError
  | absent
  | isDirectory
  | nameTooLong
  | other (text : String)
deriving DecidableEq, Repr

/-- What the system says about it. -/
def FileError.text : FileError → String
  | .absent => "No such file or directory (os error 2)"
  | .isDirectory => "Is a directory (os error 21)"
  | .nameTooLong => "File name too long (os error 36)"
  | .other text => text

/-- The names on a path; empty names and `.` lead nowhere else. -/
def pathNames (path : String) : List String := (path.splitOn "/").filter fun name => name != "" && name != "."

/-- Whether a path starts at the root. -/
def isAbsolutePath (path : String) : Bool := path.toList.head? == some '/'

/-- A name inside a directory. -/
def joinPath (directory name : String) : String :=
  if directory.isEmpty || directory.toList.getLast? == some '/' then directory ++ name else directory ++ "/" ++ name

/-- A directory with files in it. -/
structure Directory where
  path : String := ""
  files : SortedTable String String := .empty

namespace Directory

/-- The greatest size of the name of a file. -/
def maxNameSize : Nat := 255

/-- Reads what a path leads to: a file of the directory; the directory itself and those above it, which cannot be read;
or nothing. A path that ends like that of a directory does not lead to a file. -/
def read (d : Directory) (path : String) : Except FileError String :=
  let names := pathNames path
  let here := pathNames d.path
  let endsOpen := path.toList.getLast? == some '/' || (path.splitOn "/").getLast? == some "."
  if path.isEmpty then .error .absent
  else if isAbsolutePath path != isAbsolutePath d.path then
    if names.isEmpty then .error .isDirectory else .error .absent
  else if names.isPrefixOf here then .error .isDirectory
  else
    match names.getLast?.bind d.files.get? with
    | some text => if names.dropLast = here && !endsOpen then .ok text else .error .absent
    | none => .error .absent

/-- Why a file of a name cannot be written, if it cannot. -/
def refusal? (name : String) : Option FileError :=
  if name.toList.contains '/' then some .absent
  else if name.utf8ByteSize > maxNameSize then some .nameTooLong
  else none

end Directory

end TrainingJobs
