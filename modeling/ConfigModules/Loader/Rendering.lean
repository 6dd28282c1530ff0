import ConfigModules.Loader.Chain
import ConfigModules.Text.Hex
/-!
Renderings of a loaded module: its code alone, or a JSON object of the code and the map, indented by
two spaces.
-/
namespace ConfigModules

namespace JsonText

/-- A character of a JSON string. Only the quote, the backslash and the controls below the space are
escaped. -/
def escape (c : Char) : List Char :=
  if c = '\x22' then ['\\', '\x22']
  else if c = '\\' then ['\\', '\\']
  else if c = '\x08' then ['\\', 'b']
  else if c = '\x0c' then ['\\', 'f']
  else if c = '\n' then ['\\', 'n']
  else if c = '\r' then ['\\', 'r']
  else if c = '\t' then ['\\', 't']
  else if c.toNat < 0x20 then '\\' :: 'u' :: Hex.fourDigits c.toNat
  else [c]

def quoted (s : String) : String :=
  String.ofList ('\x22' :: s.toList.flatMap escape ++ ['\x22'])

end JsonText

def LoadedModule.json (loaded : LoadedModule) : String :=
  "\x7b\n  \"code\": " ++ JsonText.quoted loaded.code ++
    ",\n  \"map\": \x7b\n    \"mappings\": " ++ JsonText.quoted loaded.map.mappings ++ "\n  \x7d\n\x7d"

/-- A rendering and what led to it. -/
structure Rendering where
  text : String
  notes : List LogLine
deriving DecidableEq, Repr

inductive RenderError where
  | load (fault : LoadError)
  | unclaimed (id : String)

def RenderError.message : RenderError → String
  | .load fault => fault.message
  | .unclaimed id => "No loader handles " ++ id

namespace LoaderChain

/-- The rendering of what loading an identifier gave. -/
def renderingOf (id : String) (json : Bool) :
    Except LoadError (Option ClaimedModule) → Except RenderError Rendering
  | .error fault => .error (.load fault)
  | .ok none => .error (.unclaimed id)
  | .ok (some claimed) =>
    let note := id ++ " loaded by the " ++ claimed.loader ++ " loader"
    .ok ⟨if json then claimed.result.json else claimed.result.code, claimed.result.notes ++ [⟨.debug, note⟩]⟩

def render {m : Type → Type} [Monad m] (chain : LoaderChain m) (files : FileAccess m) (id : String)
    (json : Bool) : m (Except RenderError Rendering) := do
  return renderingOf id json (← chain.load files id)

end LoaderChain

end ConfigModules
