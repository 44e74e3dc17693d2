import FilterQuery.Dict.Basic

/-!
# Directories

A `Directory` holds files by their paths from it. The parts of a path stand between slashes, and
a directory inside it exists as long as it holds a file. Paths are relative and stay inside.
-/

namespace FilterQuery.Command

/-- **Directories.** The contents of files by their paths. -/
structure Directory where
  /-- The bytes of the files. -/
  files : Dict (List UInt8)

namespace Directory

/-- The path of its parts. -/
def joinPath (parts : List String) : String := String.intercalate "/" parts

/-- Is there a directory of this path inside? -/
def hasDirectory (dir : Directory) (parts : List String) : Bool :=
  parts = [] || dir.files.keys.any fun path => path.startsWith (joinPath parts ++ "/")

/-- The directory that the parts lead to from a directory inside. -/
def enter? (dir : Directory) (place : List String) : List String → Option (List String)
  | [] => some place
  | part :: parts =>
    if part = "" ∨ part = "." then dir.enter? place parts
    else if part = ".." then
      if place = [] then none else dir.enter? place.dropLast parts
    else if dir.hasDirectory (place ++ [part]) then dir.enter? (place ++ [part]) parts
    else none

/-- The path of a file, whether it exists or not, in a directory that exists. -/
def filePath? (dir : Directory) (path : String) : Option String := do
  if path.startsWith "/" then none
  else
    let parts := path.splitOn "/"
    let name ← parts.getLast?
    if name = "" ∨ name = "." ∨ name = ".." then none
    else
      let place := (← dir.enter? [] parts.dropLast) ++ [name]
      if dir.hasDirectory place then none else some (joinPath place)

/-- The bytes of a file. -/
def read? (dir : Directory) (path : String) : Option (List UInt8) := do
  dir.files.get? (← dir.filePath? path)

/-- The directory with a file replaced or added, if the path can be written to. -/
def write? (dir : Directory) (path : String) (bytes : List UInt8) : Option Directory := do
  return ⟨dir.files.insert (← dir.filePath? path) bytes⟩

end Directory

end FilterQuery.Command
