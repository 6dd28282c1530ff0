import ConfigModules.Command
/-!
The command line program: it answers the questions of the library from the machine's files, and prints
what the library replies.
-/
namespace ConfigModules.Main

/-- A fault by its number, which may come as the complement of 2^32. The usual ones have a text of
their own. -/
def faultOfCode (code : UInt32) (text : String) : FileFault :=
  let number := if code.toNat < Nat.pow 2 31 then code.toNat else Nat.pow 2 32 - code.toNat
  let known : List FileFault := [.missing, .notDirectory, .isDirectory, .nameTooLong, .tooManyLinks]
  let isIt : FileFault → Bool
    | .system _ n => n = number
    | _ => false
  (known.find? isIt).getD (.system text number)

def faultOfError : IO.Error → FileFault
  | .noFileOrDirectory _ code text => faultOfCode code text
  | .inappropriateType _ code text => faultOfCode code text
  | .permissionDenied _ code text => faultOfCode code text
  | .invalidArgument _ code text => faultOfCode code text
  | .resourceExhausted _ code text => faultOfCode code text
  | .otherError code text => faultOfCode code text
  | e => .system (toString e) 0

/-- An action of the system with its fault as a value. -/
def attempt {α : Type} (action : IO α) : IO (Except FileFault α) := do
  match ← action.toBaseIO with
  | .ok a => return .ok a
  | .error e => return .error (faultOfError e)

def kindOf : IO.FS.FileType → FileKind
  | .file => .file
  | .dir => .directory
  | _ => .other

def entryKindOf : IO.FS.FileType → Option FileKind
  | .symlink => none
  | type => some (kindOf type)

/-- What a path names itself, a link too. -/
def entryOf (path : String) : IO (Option FileKind) := do
  let named : IO.FS.DirEntry := ⟨path, ""⟩
  return entryKindOf (← named.root.symlinkMetadata).type

/-- The machine's files. A directory is listed as a whole or not at all. -/
def machineFiles : FileAccess IO where
  kind path := attempt do return kindOf (← (← IO.FS.realPath path).metadata).type
  entry path := attempt (entryOf path)
  read path := attempt (IO.FS.readBinFile path)
  list path := attempt do
    let entries ← (← IO.FS.realPath path).readDir
    let listed ← entries.toList.mapM fun entry => do
      return ⟨entry.fileName, ← entryOf entry.path.toString⟩
    return { entries := listed }
  place path := attempt do
    let directory ← IO.FS.realPath path
    let _ ← directory.readDir
    return directory.toString

end ConfigModules.Main

open ConfigModules in
def main (args : List String) : IO UInt32 := do
  let reply ← runProgram Main.machineFiles args
  for line in reply.log do
    IO.eprintln (line.level.name ++ " " ++ line.text)
  IO.print reply.output
  for text in reply.error do
    IO.eprintln ("Error: " ++ text)
  return UInt32.ofNat reply.status
