import ConfigModules.Toml.Document
import ConfigModules.Loader.Yaml
import ConfigModules.Loader.Chain
/-!
The settings file. Its sections and their fields may each be missing, unknown ones are ignored, and a
known one must have the right type. A section may also be an array of its fields in order.
-/
namespace ConfigModules

structure LoaderSettings where
  /-- One loader is made for each ending, in this order. -/
  suffixes : List String := [".yaml"]
  decoding : DecodeOptions := {}
deriving DecidableEq, Repr

structure CheckSettings where
  /-- The directory that is checked if none is named. -/
  directory : String := "docs"
deriving DecidableEq, Repr

structure Settings where
  loader : LoaderSettings := {}
  check : CheckSettings := {}
deriving DecidableEq, Repr

namespace Settings

open Toml (Item)

/-- The fields of a section, looked up by name and position. A date has no fields. -/
def fields? : Item → Option (String → Nat → Option Item)
  | .table _ entries => some fun name _ => entries.lookup name
  | .inlineTable entries => some fun name _ => entries.lookup name
  | .array items => some fun _ position => items[position]?
  | .tables latest earlier => some fun _ position =>
      ((latest :: earlier).reverse.map (Item.table .header))[position]?
  | .dateTime => some fun _ _ => none
  | _ => none

/-- A field read by `read?`, or its default if it is missing. -/
def field? {α : Type} (read? : Item → Option α) (default : α) : Option Item → Option α
  | none => some default
  | some item => read? item

def text? : Item → Option String
  | .string s => some s
  | _ => none

def boolean? : Item → Option Bool
  | .boolean b => some b
  | _ => none

def texts? : Item → Option (List String)
  | .array items => items.mapM text?
  | _ => none

def policyNamed? : String → Option MultiDocument
  | "reject" => some .reject
  | "array" => some .array
  | _ => none

/-- Whether an item is an array or table without parts. -/
def isBare : Item → Bool
  | .array items => items.isEmpty
  | .inlineTable entries => entries.isEmpty
  | .table _ entries => entries.isEmpty
  | _ => false

/-- A policy is given by its name, or by a table with the name as its only key and nothing under it. -/
def policy? : Item → Option MultiDocument
  | .string name => policyNamed? name
  | .inlineTable [(name, item)] => if isBare item then policyNamed? name else none
  | .table _ [(name, item)] => if isBare item then policyNamed? name else none
  | _ => none

def loaderOf? (item : Item) : Option LoaderSettings := do
  let field ← fields? item
  let suffixes ← field? texts? [".yaml"] (field "suffixes" 0)
  let multiDocument ← field? policy? .reject (field "multi_document" 1)
  let mergeKeys ← field? boolean? false (field "merge_keys" 2)
  some { suffixes, decoding := { multiDocument, mergeKeys } }

def checkOf? (item : Item) : Option CheckSettings := do
  let field ← fields? item
  let directory ← field? text? "docs" (field "dir" 0)
  some { directory }

def ofText? (text : String) : Option Settings := do
  let document ← Toml.document? text
  let loader ← field? loaderOf? {} (document.lookup "loader")
  let check ← field? checkOf? {} (document.lookup "check")
  some { loader, check }

end Settings

inductive SettingsError where
  | unreadable (path : String) (fault : FileFault)
  | malformed (path : String)
  | noSuffix
  | emptySuffix
deriving DecidableEq, Repr

/-- The first line of an error. What the system or the reader of the format says of its cause would be
listed below and is left out. -/
def SettingsError.message : SettingsError → String
  | .unreadable path _ => "Failed to read " ++ path
  | .malformed path => "Failed to parse " ++ path
  | .noSuffix => "[loader] suffixes must name at least one suffix"
  | .emptySuffix => "[loader] suffixes must not contain an empty suffix"

namespace Settings

/-- The settings of a file that exists, given its text. -/
def ofFile (path : String) : Except FileFault String → Except SettingsError Settings
  | .error fault => .error (.unreadable path fault)
  | .ok text =>
    match ofText? text with
    | some settings => .ok settings
    | none => .error (.malformed path)

/-- Settings with what the log says of their origin. -/
structure Loaded where
  settings : Settings
  note : LogLine

variable {m : Type → Type} [Monad m]

/-- Loads the settings at a path. If nothing is there, the defaults hold. -/
def load (files : FileAccess m) (path : String) : m (Except SettingsError Loaded) := do
  if ← files.found path then
    let settings := ofFile path (← files.readText path)
    return settings.map fun settings => ⟨settings, .info, "Loaded config from " ++ path⟩
  else return .ok ⟨{}, .debug, "No config at " ++ path ++ ", using defaults"⟩

/-- The chain of loaders, one for each ending, if there are endings and none is empty. -/
def chain (settings : Settings) : Except SettingsError (LoaderChain m) :=
  let suffixes := settings.loader.suffixes
  if suffixes.isEmpty then .error .noSuffix
  else if suffixes.any String.isEmpty then .error .emptySuffix
  else .ok ⟨suffixes.map fun suffix =>
    YamlLoader.loader { suffix, decoding := settings.loader.decoding }⟩

end Settings

end ConfigModules
