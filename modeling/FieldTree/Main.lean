import FieldTree.Surroundings
/-! The program on the files of the system. -/

namespace FieldTree

/-- The code of the system for a name that is too long. It is told with either sign. -/
def nameTooLongCode : UInt32 := 36

def FileError.ofSystem (path : Path) : IO.Error → FileError
  | .noFileOrDirectory .. => .notFound path
  | .inappropriateType .. => .notDirectory path
  | error@(.invalidArgument _ code _) =>
    if code = nameTooLongCode || code = -nameTooLongCode then .nameTooLong path else .other path (toString error)
  | error => .other path (toString error)

namespace SystemFiles

/-- The answer of the system about a path that may be one. -/
def asked {α : Type} (path : Path) (question : IO α) : IO (Except FileError α) := do
  if path.hasNull then return .error .nullCharacter
  try return .ok (← question)
  catch error => return .error (.ofSystem path error)

def status (path : Path) : IO (Except FileError FileStatus) := do
  match ← asked path (do ((← IO.currentDir) / path.text).metadata) with
  | .ok data => return .ok (match data.type with
    | .dir => .directory
    | _ => .file)
  | .error error => return if error.isAbsence then .ok .absent else .error error

/-- What is asked about a file. A directory is none. -/
def ofFile {α : Type} (path : Path) (question : IO α) : IO (Except FileError α) := do
  match ← status path with
  | .ok .directory => return .error (.isDirectory path)
  | .error error => return .error error
  | .ok _ => asked path question

end SystemFiles

instance : FileAccess IO where
  workingDirectory := return Path.ofString (← IO.currentDir).toString
  status := SystemFiles.status
  read path := SystemFiles.ofFile path (do return (← IO.FS.readBinFile path.text).toList)
  write path bytes := SystemFiles.ofFile path (IO.FS.writeBinFile path.text ⟨bytes.toArray⟩)

/-- A number nobody can foresee. -/
def randomSeed : IO Int :=
  return (← IO.getRandomBytes 8).toList.foldl (fun seed byte => 256 * seed + byte.toNat) 0

end FieldTree

open FieldTree in
def main (arguments : List String) : IO UInt32 := do
  let entropy := ⟨← randomSeed, ← randomSeed⟩
  match ← (CommandLine.run .usual entropy arguments : IO CommandLine.Ending) with
  | .ok output =>
    (← IO.getStderr).putStr output.err
    (← IO.getStdout).putStr output.out
    return UInt32.ofNat output.exit
  | .error error =>
    (← IO.getStderr).putStrLn error.message
    return 1
