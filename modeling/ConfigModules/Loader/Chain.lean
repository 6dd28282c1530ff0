import ConfigModules.Loader.Basic
import ConfigModules.Text.Quotation
/-!
Chains of loaders. An identifier is offered to each in turn; the first that does not decline it
decides.
-/
namespace ConfigModules

/-- A module and the name of the loader that made it. -/
structure ClaimedModule where
  loader : String
  result : LoadedModule
deriving DecidableEq, Repr

structure LoaderChain (m : Type → Type) where
  loaders : List (Loader m) := []

namespace LoaderChain

variable {m : Type → Type}

def push (chain : LoaderChain m) (l : Loader m) : LoaderChain m := ⟨chain.loaders ++ [l]⟩

def names (chain : LoaderChain m) : List String := chain.loaders.map Loader.name

def size (chain : LoaderChain m) : Nat := chain.loaders.length

def isEmpty (chain : LoaderChain m) : Bool := chain.loaders.isEmpty

/-- The chain as shown in reports: the names of its loaders, quoted. -/
def text (chain : LoaderChain m) : String :=
  "LoaderChain \x7b loaders: [" ++ ", ".intercalate (chain.names.map Quotation.text) ++ "] \x7d"

variable [Monad m]

def offer (files : FileAccess m) (id : String) : List (Loader m) → m (Except LoadError (Option ClaimedModule))
  | [] => return .ok none
  | l :: ls => do
    match ← l.load? files id with
    | .error fault => return .error fault
    | .ok (some result) => return .ok (some ⟨l.name, result⟩)
    | .ok none => offer files id ls

def load (chain : LoaderChain m) (files : FileAccess m) (id : String) :
    m (Except LoadError (Option ClaimedModule)) :=
  offer files id chain.loaders

end LoaderChain

end ConfigModules
