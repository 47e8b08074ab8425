import FieldTree.Files.Path
import FieldTree.Text.Encoding
/-! What a program does with files, and a tree of files in memory on which it can do it. -/

namespace FieldTree

inductive FileStatus
  | absent
  | file
  | directory
  deriving DecidableEq

class FileAccess (m : Type → Type) where
  /-- The directory that relative paths are seen from. -/
  workingDirectory : m Path
  /-- What is at a path, unless the path itself is at fault. -/
  status : Path → m (Except FileError FileStatus)
  read : Path → m (Except FileError (List UInt8))
  write : Path → List UInt8 → m (Except FileError Unit)

/-- Line ends of any kind become line feeds. -/
def unifyLineEnds : List Char → List Char
  | [] => []
  | '\r' :: '\n' :: rest => '\n' :: unifyLineEnds rest
  | '\r' :: rest => '\n' :: unifyLineEnds rest
  | c :: rest => c :: unifyLineEnds rest

/-- The text of a file, if its bytes are one. -/
def textOfBytes? (bytes : List UInt8) : Option String :=
  (Text.ofUtf8? bytes).map fun text => String.ofList (unifyLineEnds text.toList)

namespace FileAccess
variable {m : Type → Type} [Monad m] [FileAccess m]

/-- The absolute path without dots. -/
def resolve (path : Path) : m (Except FileError Path) := do
  if path.hasNull then return .error .nullCharacter else return .ok (Path.resolve (← workingDirectory) path)

end FileAccess

/-- Files by their parts from the root, and the directory that relative paths are seen from. The directories
are those that hold the files and the working directory. -/
structure FileTree where
  directory : List String
  files : List (List String × List UInt8)

namespace FileTree

def content? (tree : FileTree) (parts : List String) : Option (List UInt8) :=
  (tree.files.find? fun (place, _) => place = parts).map Prod.snd

def isDirectory (tree : FileTree) (parts : List String) : Bool :=
  parts.isPrefixOf tree.directory ||
    tree.files.any fun (place, _) => parts.isPrefixOf place && parts ≠ place

/-- The longest part of a path, and the longest path, in bytes. -/
def maxNameLength : Nat := 255

def maxPathLength : Nat := 4095

/-- Follows the parts of a path from a place to a place. All on the way have to be directories. -/
def walk (tree : FileTree) (path : Path) (place : List String) : List String → Except FileError (List String)
  | [] => .ok place
  | part :: rest =>
    if (tree.content? place).isSome then .error (.notDirectory path)
    else if !tree.isDirectory place then .error (.notFound path)
    else if maxNameLength < part.utf8ByteSize then .error (.nameTooLong path)
    else walk tree path (if part = ".." then place.dropLast else place ++ [part]) rest

def follow (tree : FileTree) (path : Path) : Except FileError (List String) :=
  if path.hasNull then .error .nullCharacter
  else if maxPathLength < path.text.utf8ByteSize then .error (.nameTooLong path)
  else tree.walk path (if path.isAbsolute then [] else tree.directory) path.parts

def statusAt (tree : FileTree) (place : List String) : FileStatus :=
  if (tree.content? place).isSome then .file else if tree.isDirectory place then .directory else .absent

def status (tree : FileTree) (path : Path) : Except FileError FileStatus :=
  match tree.follow path with
  | .ok place => .ok (tree.statusAt place)
  | .error error => if error.isAbsence then .ok .absent else .error error

def read (tree : FileTree) (path : Path) : Except FileError (List UInt8) := do
  let place ← tree.follow path
  match tree.content? place with
  | some bytes => return bytes
  | none => throw (if tree.isDirectory place then .isDirectory path else .notFound path)

def put (tree : FileTree) (place : List String) (bytes : List UInt8) : FileTree :=
  { tree with files := (place, bytes) :: tree.files.filter fun (other, _) => other ≠ place }

/-- A file is written over one that is there, or into a directory. -/
def write (tree : FileTree) (path : Path) (bytes : List UInt8) : Except FileError FileTree := do
  let place ← tree.follow path
  if (tree.content? place).isSome then return tree.put place bytes
  else if tree.isDirectory place then throw (.isDirectory path)
  else return tree.put place bytes

instance : FileAccess (StateM FileTree) where
  workingDirectory := return ⟨"/", (← get).directory⟩
  status path := return (← get).status path
  read path := return (← get).read path
  write path bytes := fun tree =>
    match tree.write path bytes with
    | .ok changed => (.ok (), changed)
    | .error error => (.error error, tree)

end FileTree
end FieldTree
