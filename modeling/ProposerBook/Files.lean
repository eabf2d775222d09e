/-
Files: what may be found where a file is looked for.

A directory is the files in it, each with the names that lead to it; the directories
on the way are there because the files are.  A path is followed one name at a time,
and the first step that cannot be taken is the fault: a name that is not there, or a
file where a directory would have to be.  Nothing outside the directory has a name.
-/
import ProposerBook.Bytes.Basic

namespace ProposerBook

/-- Why a file yields no content, or not the text it was to hold. -/
inductive FileFault
  | notFound
  | isDirectory
  | notDirectory
  | nameTooLong
  | notAPath
  | notText
  /-- Any other fault, as the system tells it, and whether there is something at the place all the
  same: a file that may not be read is there, one in a directory that may not be entered is not
  found to be. -/
  | other (told : String) (there : Bool)
  deriving DecidableEq, Repr

def FileFault.message : FileFault → String
  | .notFound => "No such file or directory (os error 2)"
  | .isDirectory => "Is a directory (os error 21)"
  | .notDirectory => "Not a directory (os error 20)"
  | .nameTooLong => "File name too long (os error 36)"
  | .notAPath => "file name contained an unexpected NUL byte"
  | .notText => "stream did not contain valid UTF-8"
  | .other told _ => told

/-- Whether there is something at the place, even though it yields no content. -/
def FileFault.isThere : FileFault → Bool
  | .isDirectory | .notText => true
  | .other _ there => there
  | .notFound | .notDirectory | .nameTooLong | .notAPath => false

/-- What is found at a place that should hold a file. -/
abbrev FileContent := Except FileFault Bytes

/-- Whether there is anything at the place. -/
def FileContent.isThere : FileContent → Bool
  | .ok _ => true
  | .error f => f.isThere

/-- The text of a file. -/
def FileContent.text (c : FileContent) : Except FileFault String := do
  let b ← c
  match b.toString? with
  | some s => .ok s
  | none => .error .notText

/-- The files below one directory, by the names that lead to them. -/
structure Directory where
  files : List (List String × Bytes)

namespace Directory

/-- The directory with a file at each of these paths. -/
def ofPaths (fs : List (String × Bytes)) : Directory :=
  ⟨fs.map fun (p, b) => ((p.splitOn "/").filter fun n => n ≠ "" ∧ n ≠ ".", b)⟩

/-- The file at the end of these names. -/
def file? (d : Directory) (names : List String) : Option Bytes := d.files.lookup names

/-- Whether these names lead to a directory on the way to some file. -/
def hasBelow (d : Directory) (names : List String) : Bool :=
  d.files.any fun (p, _) => names.length < p.length && p.take names.length == names

/-- Follows the names of a path from a place inside the directory, or from `none` outside it. -/
def follow (d : Directory) : Option (List String) → List String → FileContent
  | _, [] => .error .isDirectory
  | place, name :: rest =>
    if name = "" ∨ name = "." then d.follow place rest
    else if name = ".." then
      match place with
      | none | some [] => d.follow none rest
      | some names => d.follow (some names.dropLast) rest
    else if 255 < name.utf8ByteSize then .error .nameTooLong
    else
      match place with
      | none => .error .notFound
      | some names =>
        match d.file? (names ++ [name]) with
        | some b => if rest.isEmpty then .ok b else .error .notDirectory
        | none =>
          if d.hasBelow (names ++ [name]) then d.follow (some (names ++ [name])) rest
          else .error .notFound

/-- What is found at a path. -/
def read (d : Directory) (path : String) : FileContent :=
  if path.contains (Char.ofNat 0) then .error .notAPath
  else if path = "" then .error .notFound
  else d.follow (if path.startsWith "/" then none else some []) (path.splitOn "/")

/-- Whether there is anything at a path, be it a file or a directory. -/
def holds (d : Directory) (path : String) : Bool := (d.read path).isThere

end Directory

end ProposerBook
