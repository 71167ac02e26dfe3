/-!
# Directories

The files that a program can see, as names and contents. A name is a path of parts between
slashes; its last part is a file and the others are directories. Reading and creating files fail
in the ways a file system makes them fail.
-/

namespace Declutter.CommandLine

/-- Why a file cannot be read or created. -/
inductive FileFault where
  | missing
  | isDirectory
  | notDirectory
  | invalidText
  | other (text : String)
  deriving DecidableEq, Repr, Inhabited

def FileFault.message : FileFault → String
  | .missing => "No such file or directory (os error 2)"
  | .isDirectory => "Is a directory (os error 21)"
  | .notDirectory => "Not a directory (os error 20)"
  | .invalidText => "stream did not contain valid UTF-8"
  | .other text => text

/-- The files of a directory and of those below it, by their paths. -/
structure Directory where
  files : List (List String × ByteArray)

namespace Directory

/-- What a path leads to. -/
inductive Target where
  | file (content : ByteArray)
  | directory
  /-- Nothing, but a file could be created there. -/
  | vacant

/-- The pieces of a path between its slashes. -/
def pieces : List Char → List (List Char)
  | [] => [[]]
  | '/' :: cs => [] :: pieces cs
  | c :: cs =>
    match pieces cs with
    | piece :: rest => (c :: piece) :: rest
    | [] => [[c]]

/-- The parts of a path, without those that stay where they are. -/
def parts (path : String) : List String :=
  ((pieces path.toList).map String.ofList).filter fun part => part ≠ "" && part ≠ "."

/-- Whether a path can only be that of a directory. -/
def isDirectoryPath (path : String) : Bool :=
  match (pieces path.toList).getLast? with
  | some piece => piece = [] || piece = ['.']
  | none => true

def isDirectory (directory : Directory) (parts : List String) : Bool :=
  parts.isEmpty || directory.files.any fun (name, _) =>
    parts.isPrefixOf name && parts.length < name.length

/-- Follows the parts of a path. -/
def follow (directory : Directory) (passed : List String) : List String → Except FileFault Target
  | [] => .ok .directory
  | part :: rest =>
    let here := passed ++ [part]
    if directory.isDirectory here then follow directory here rest
    else
      match directory.files.lookup here, rest with
      | some content, [] => .ok (.file content)
      | some _, _ :: _ => .error .notDirectory
      | none, [] => .ok .vacant
      | none, _ :: _ => .error .missing

def target (directory : Directory) (path : String) : Except FileFault Target := do
  if path.isEmpty || path.startsWith "/" then throw .missing
  match ← directory.follow [] (parts path), isDirectoryPath path with
  | .file _, true => throw .notDirectory
  | target, _ => return target

/-- The content of a file. -/
def read (directory : Directory) (path : String) : Except FileFault ByteArray := do
  match ← directory.target path with
  | .file content => return content
  | .directory => throw .isDirectory
  | .vacant => throw .missing

/-- The directory with a file created, or its content replaced. -/
def write (directory : Directory) (path : String) (content : ByteArray) :
    Except FileFault Directory := do
  let name := parts path
  match ← directory.target path with
  | .directory => throw .isDirectory
  | .vacant =>
    if isDirectoryPath path then throw .isDirectory
    return ⟨directory.files ++ [(name, content)]⟩
  | .file _ =>
    return ⟨directory.files.map fun (other, old) => (other, if other = name then content else old)⟩

end Directory

end Declutter.CommandLine
