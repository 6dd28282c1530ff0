import ConfigModules.Loader.Basic
import ConfigModules.Script.Literal
import ConfigModules.Text.Quotation
/-!
The loader of YAML files. It claims identifiers by their ending, before it asks for any file, and
makes a module whose default export is the decoded file.
-/
namespace ConfigModules

structure YamlLoader where
  /-- The ending of the identifiers it claims. -/
  suffix : String := ".yaml"
  decoding : DecodeOptions := {}
deriving DecidableEq, Repr

namespace YamlLoader

def claims (l : YamlLoader) (id : String) : Bool := l.suffix.toList.isSuffixOf id.toList

/-- The module of a value, with a note of the identifier, the kind of value and the size in bytes. -/
def moduleOf (id : String) (v : Value) : LoadedModule :=
  let code := Script.moduleText v
  let note := "loaded YAML module id=" ++ Quotation.text id ++ " kind=" ++ Quotation.text v.kind ++
    " bytes=" ++ toString code.utf8ByteSize
  { code, notes := [⟨.debug, note⟩] }

/-- The module of a file, given what reading it gave. -/
def moduleOfText (l : YamlLoader) (id : String) : Except FileFault String → Except LoadError LoadedModule
  | .error fault => .error (.unreadable id fault)
  | .ok source =>
    match decode l.decoding source with
    | .error fault => .error (.undecodable id fault)
    | .ok v => .ok (moduleOf id v)

def loader {m : Type → Type} [Monad m] (l : YamlLoader) : Loader m where
  name := "yaml"
  load? files id := do
    if l.claims id then return (l.moduleOfText id (← files.readText id)).map some else return .ok none

end YamlLoader

end ConfigModules
