/-!
What the program asks of a file system. The questions are a record of functions in some monad: the
command line answers them from the machine's files, `FileTree.access` from a tree in memory.
-/
namespace ConfigModules

/-- Why a file or directory cannot be used. -/
inductive FileFault where
  /-- An answer of the system: its text and number. -/
  | system (text : String) (code : Nat)
  /-- A zero character, which ends a name for the system. -/
  | zeroInName
  /-- Bytes that are no UTF-8 text. -/
  | notText
deriving DecidableEq, Repr

namespace FileFault

def missing : FileFault := .system "No such file or directory" 2
def notDirectory : FileFault := .system "Not a directory" 20
def isDirectory : FileFault := .system "Is a directory" 21
def nameTooLong : FileFault := .system "File name too long" 36
def tooManyLinks : FileFault := .system "Too many levels of symbolic links" 40

def message : FileFault → String
  | .system text code => text ++ " (os error " ++ toString code ++ ")"
  | .zeroInName => "file name contained an unexpected NUL byte"
  | .notText => "stream did not contain valid UTF-8"

end FileFault

/-- What a path leads to once links are followed. -/
inductive FileKind where
  | file
  | directory
  | other
deriving DecidableEq, Repr

/-- An entry of a directory as it is listed. Links are not followed: `kind` is `none` for them. -/
structure DirectoryEntry where
  name : String
  kind : Option FileKind
deriving DecidableEq, Repr

/-- A path as long as this, in bytes, is refused by the system. -/
def pathLimit : Nat := 4096

/-- The entries of a directory, in any order, and what cut the listing short if something did. -/
structure Listing where
  entries : List DirectoryEntry
  fault? : Option FileFault := none
deriving DecidableEq, Repr

structure FileAccess (m : Type → Type) where
  kind : String → m (Except FileFault FileKind)
  /-- What a path names, a link at its end not followed: `none` for a link. -/
  entry : String → m (Except FileFault (Option FileKind))
  read : String → m (Except FileFault ByteArray)
  list : String → m (Except FileFault Listing)
  /-- The place of a directory that can be opened: the same for two paths to one directory. -/
  place : String → m (Except FileFault String)

def textOfBytes (bytes : ByteArray) : Except FileFault String :=
  match String.fromUTF8? bytes with
  | some text => .ok text
  | none => .error .notText

namespace FileAccess

variable {m : Type → Type} [Monad m]

def readText (files : FileAccess m) (path : String) : m (Except FileFault String) := do
  return (← files.read path).bind textOfBytes

/-- Whether a path leads to anything. -/
def found (files : FileAccess m) (path : String) : m Bool := do
  match ← files.kind path with
  | .ok _ => return true
  | .error _ => return false

end FileAccess

def childPath (directory name : String) : String :=
  if directory.isEmpty || directory.endsWith "/" then directory ++ name else directory ++ "/" ++ name

end ConfigModules
