set_option autoImplicit false

/-! # Directories for session logs

Where session logs can be kept: a tree of directories and files below one root. A directory is made
with all those above it, and making one fails only where a file is in the way. A session has one log
file in a directory, however often it is opened. -/

namespace AttributeOptimizer

/-- The names from the root down to a file or directory. -/
abbrev FilePath := List String

namespace FilePath

/-- The names in a path separated by slashes; empty ones and single dots mean nothing. -/
def ofText (text : String) : FilePath :=
  ((text.toList.splitOn '/').map String.ofList).filter fun name => name ≠ "" && name ≠ "."

end FilePath

/-- A tree of directories and files. -/
structure FileTree where
  /-- The paths of the directories. -/
  directories : List FilePath
  /-- The paths of the files. -/
  files : List FilePath
  deriving Repr

namespace FileTree

/-- The tree with only some files in its root. -/
def ofFiles (names : List String) : FileTree := ⟨[], names.map fun name => [name]⟩

/-- Makes the directories on the way from a directory along names, two dots leading upward; the tree
    and the directory reached, or nothing if a file is in the way. -/
def makeFrom (t : FileTree) (here : FilePath) : FilePath → Option (FileTree × FilePath)
  | [] => some (t, here)
  | name :: rest =>
    if name = ".." then makeFrom t here.dropLast rest
    else
      let next := here ++ [name]
      if t.files.contains next then none
      else if t.directories.contains next then makeFrom t next rest
      else makeFrom { t with directories := t.directories ++ [next] } next rest

/-- The number of entries of a directory. -/
def entryCount (t : FileTree) (directory : FilePath) : Nat :=
  ((t.directories ++ t.files).filter fun path => path ≠ [] && path.dropLast = directory).length

/-- The name of the session's log file. -/
def sessionFile : String := "session.log"

/-- Opens the session's log file in a directory, which is made if need be; the tree and the number
    of entries of the directory, or nothing if a file is in the way. -/
def openLog (t : FileTree) (directory : String) : Option (FileTree × Nat) :=
  match t.makeFrom [] (FilePath.ofText directory) with
  | none => none
  | some (t, directory) =>
    let file := directory ++ [sessionFile]
    let t := if t.files.contains file then t else { t with files := t.files ++ [file] }
    some (t, t.entryCount directory)

end FileTree

end AttributeOptimizer
