import FieldTree.Text.Quoted
import FieldTree.Text.Split
/-! Paths of files. A path is kept without parts that say nothing; two dots say something, since the part
before them may not be a directory. -/

namespace FieldTree

structure Path where
  /-- The slashes that the path begins with: none, one, or exactly two. -/
  root : String
  parts : List String
  deriving DecidableEq

namespace Path

def rootOf (chars : List Char) : String :=
  match (chars.takeWhile (· = '/')).length with
  | 0 => ""
  | 2 => "//"
  | _ => "/"

def ofString (text : String) : Path :=
  let parts := (Text.splitOn '/' text.toList).map String.ofList
  ⟨rootOf text.toList, parts.filter fun part => part ≠ "" && part ≠ "."⟩

/-- The empty path is written as a dot. -/
def text (path : Path) : String :=
  if path.root = "" && path.parts.isEmpty then "." else path.root ++ "/".intercalate path.parts

def isAbsolute (path : Path) : Bool := path.root ≠ ""

/-- No file has a path with the null character in it. -/
def hasNull (path : Path) : Bool := path.parts.any fun part => part.toList.contains '\x00'

def parent (path : Path) : Path := { path with parts := path.parts.dropLast }

/-- The second path as seen from the first. -/
def join (base path : Path) : Path :=
  if path.isAbsolute then path else { base with parts := base.parts ++ path.parts }

/-- Two dots take away the part before them. -/
def collapse (parts : List String) : List String :=
  parts.foldl (fun done part => if part = ".." then done.dropLast else done ++ [part]) []

/-- The absolute path without dots, as seen from a directory. -/
def resolve (directory path : Path) : Path := ⟨"/", collapse (directory.join path).parts⟩

end Path

/-- Why a file cannot be used. -/
inductive FileError
  | notFound (path : Path)
  | notDirectory (path : Path)
  | isDirectory (path : Path)
  | nameTooLong (path : Path)
  | nullCharacter
  /-- Anything else, in the words of the system. -/
  | other (path : Path) (text : String)
  deriving DecidableEq

namespace FileError

/-- Whether the error says no more than that nothing is at the path. -/
def isAbsence : FileError → Bool
  | .notFound _ => true
  | .notDirectory _ => true
  | .nullCharacter => true
  | _ => false

def message : FileError → String
  | .notFound path => "[Errno 2] No such file or directory: " ++ Text.quoted path.text
  | .notDirectory path => "[Errno 20] Not a directory: " ++ Text.quoted path.text
  | .isDirectory path => "[Errno 21] Is a directory: " ++ Text.quoted path.text
  | .nameTooLong path => "[Errno 36] File name too long: " ++ Text.quoted path.text
  | .nullCharacter => "embedded null byte"
  | .other path text => text ++ ": " ++ Text.quoted path.text

end FileError

end FieldTree
