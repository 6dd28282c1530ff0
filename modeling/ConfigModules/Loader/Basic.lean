import ConfigModules.Decoding
import ConfigModules.Files.Basic
import ConfigModules.Log
/-!
Loaders. A loader is offered the identifier of a module; it declines it, makes a module of it, or
fails on it. Loading asks the file system and nothing else.
-/
namespace ConfigModules

/-- The lines of a module mapped to its source. Modules made from data map nothing. -/
structure SourceMap where
  mappings : String := ""
deriving DecidableEq, Repr

def SourceMap.isEmpty (map : SourceMap) : Bool := map.mappings.isEmpty

structure LoadedModule where
  code : String
  map : SourceMap := {}
  /-- What the loader has to say about its work. -/
  notes : List LogLine := []
deriving DecidableEq, Repr

inductive LoadError where
  | unreadable (id : String) (fault : FileFault)
  | undecodable (id : String) (fault : DecodeError)

namespace LoadError

def id : LoadError → String
  | .unreadable id _ => id
  | .undecodable id _ => id

def message : LoadError → String
  | .unreadable id fault => "Failed to read " ++ id ++ ": " ++ fault.message
  | .undecodable id fault => "Failed to decode " ++ id ++ ": " ++ fault.message

end LoadError

structure Loader (m : Type → Type) where
  name : String
  /-- The module of an identifier, or nothing if it is declined. -/
  load? : FileAccess m → String → m (Except LoadError (Option LoadedModule))

end ConfigModules
