import ConfigModules.Loader.Chain
import ConfigModules.Files.Walk
import ConfigModules.Script.Evaluation
/-!
Checking that modules say what their files say. A file that some loader claims is loaded, the module
is evaluated, and the value is compared with the decoded file.
-/
namespace ConfigModules

inductive CheckFailure where
  | load (fault : LoadError)
  | module (fault : Script.EvaluationError)
  | unreadable (fault : FileFault)
  | undecodable (fault : DecodeError)
  | differs
  | walk (fault : WalkFault)

def CheckFailure.message : CheckFailure → String
  | .load fault => fault.message
  | .module fault => "emitted module does not evaluate: " ++ fault.message
  | .unreadable fault => fault.message
  | .undecodable fault => fault.message
  | .differs => "evaluated module differs from the decoded file"
  | .walk fault => "could not be walked: " ++ fault.message

inductive CheckOutcome where
  | passed
  /-- No loader claims the file. -/
  | skipped
  | failed (failure : CheckFailure)

/-- The outcome for one file and what the log says of it. -/
structure FileCheck where
  outcome : CheckOutcome
  notes : List LogLine := []

/-- Compares the value of a module with the text of its file. -/
def compareWithFile (options : DecodeOptions) (v : Value) : Except FileFault String → Except CheckFailure Unit
  | .error fault => .error (.unreadable fault)
  | .ok source =>
    match decode options source with
    | .error fault => .error (.undecodable fault)
    | .ok expected => if v.same expected then .ok () else .error .differs

namespace LoaderChain

variable {m : Type → Type} [Monad m]

/-- Checks the file at a path, which is also its identifier. -/
def checkFile (chain : LoaderChain m) (files : FileAccess m) (options : DecodeOptions) (path : String) :
    m FileCheck := do
  match ← chain.load files path with
  | .error fault => return ⟨.failed (.load fault), []⟩
  | .ok none => return ⟨.skipped, []⟩
  | .ok (some claimed) =>
    let notes := claimed.result.notes
    match Script.evaluate claimed.result.code with
    | .error fault => return ⟨.failed (.module fault), notes⟩
    | .ok v =>
      match compareWithFile options v (← files.readText path) with
      | .error failure => return ⟨.failed failure, notes⟩
      | .ok () => return ⟨.passed, notes ++ [⟨.debug, path ++ " round-trips"⟩]⟩

end LoaderChain

structure CheckReport where
  passed : Nat := 0
  skipped : Nat := 0
  failures : List (String × CheckFailure) := []
  notes : List LogLine := []

namespace CheckReport

/-- The modules that were checked or could not be reached. -/
def modules (r : CheckReport) : Nat := r.passed + r.failures.length

/-- Adds the outcome for a file after those before. -/
def add (r : CheckReport) (path : String) (c : FileCheck) : CheckReport :=
  let r := { r with notes := r.notes ++ c.notes }
  match c.outcome with
  | .passed => { r with passed := r.passed + 1 }
  | .skipped => { r with skipped := r.skipped + 1 }
  | .failed failure => { r with failures := r.failures ++ [(path, failure)] }

end CheckReport

/-- The faults of a walk. One that tells no path is reported under the directory that is checked. -/
def walkFailures (directory : String) (items : List WalkItem) : List (String × CheckFailure) :=
  items.filterMap fun
    | .fault fault => some (fault.path?.getD directory, .walk fault)
    | .file _ => none

def walkFiles (items : List WalkItem) : List String :=
  items.filterMap fun
    | .file path => some path
    | .fault _ => none

/-- A directory to be checked that does not exist. -/
structure DirectoryMissing where
  path : String
deriving DecidableEq, Repr

def DirectoryMissing.message (e : DirectoryMissing) : String := "Directory not found: " ++ e.path

namespace LoaderChain

variable {m : Type → Type} [Monad m]

def checkFiles (chain : LoaderChain m) (files : FileAccess m) (options : DecodeOptions) :
    CheckReport → List String → m CheckReport
  | r, [] => return r
  | r, path :: paths => do
    checkFiles chain files options (r.add path (← chain.checkFile files options path)) paths

/-- Checks every file at and below a path. The faults of the walk come before those of files. -/
def checkDirectory (chain : LoaderChain m) (files : FileAccess m) (options : DecodeOptions)
    (path : String) : m (Except DirectoryMissing CheckReport) := do
  if ← files.found path then
    let items ← files.walk path
    let r : CheckReport := { failures := walkFailures path items }
    return .ok (← chain.checkFiles files options r (walkFiles items))
  else return .error ⟨path⟩

end LoaderChain

inductive CheckError where
  | directoryMissing (fault : DirectoryMissing)
  | modulesFailed (count : Nat)
deriving DecidableEq, Repr

def CheckError.message : CheckError → String
  | .directoryMissing fault => fault.message
  | .modulesFailed count => toString count ++ " module(s) failed the round-trip check"

namespace CheckReport

/-- A warning for each failure and a summary. The time that the check took, with which the summary would
end, is left out. -/
def lines (r : CheckReport) : List LogLine :=
  r.failures.map (fun (path, failure) => ⟨.warn, path ++ ": " ++ failure.message⟩) ++
    [⟨.info, "Checked " ++ toString r.modules ++ " modules (" ++ toString r.skipped ++ " skipped)"⟩]

def verdict (r : CheckReport) : Except CheckError Unit :=
  if r.failures.isEmpty then .ok () else .error (.modulesFailed r.failures.length)

end CheckReport

/-- Checks a directory: the log and the verdict. -/
def LoaderChain.runCheck {m : Type → Type} [Monad m] (chain : LoaderChain m) (files : FileAccess m)
    (options : DecodeOptions) (path : String) : m (List LogLine × Except CheckError Unit) := do
  match ← chain.checkDirectory files options path with
  | .error fault => return ([], .error (.directoryMissing fault))
  | .ok r => return (r.notes ++ r.lines, r.verdict)

end ConfigModules
