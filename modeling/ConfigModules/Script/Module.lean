import ConfigModules.Script.Grammar.Statements
/-!
Modules: imports, exports and statements up to the end. Strings that stand alone at the start are
directives and no statements. No name may be exported twice.
-/
namespace ConfigModules.Script

namespace Grammar

variable (g : Grammar)

/-- A word that may also be a keyword, or a string, as the outer name of an export or import. -/
def outerName (a : Ahead) : Option (String × Ahead) :=
  match a.token with
  | .name w _ => a.next.map (w, ·)
  | .string s => a.next.map (s, ·)
  | _ => none

/-- The names between braces, the opening one taken: for each the name as it stands first, whether
that could be a variable, and the name after `as`. -/
def specifiers (c : Context) : Nat → List (String × Bool × Option (String × Bool)) → Ahead →
    Option (List (String × Bool × Option (String × Bool)) × Ahead)
  | 0, _, _ => none
  | fuel + 1, done, a =>
    if a.isMark "\x7d" then a.next.map (done.reverse, ·)
    else do
      let (w, b) ← outerName a
      let (renamed, b) ←
        if b.isWord "as" then do
          let b ← b.next
          let (v, d) ← outerName b
          some (some (v, isVariable v b), d)
        else some (none, b)
      let done := (w, isVariable w a, renamed) :: done
      if b.isMark "," then specifiers c fuel done (← b.next)
      else return (done.reverse, ← b.expect "\x7d")
where
  isVariable (w : String) (a : Ahead) : Bool := a.token.isName && isVariableName c w

/-- The attributes of an import: keys with strings. -/
def attributes : Nat → Ahead → Option Ahead
  | 0, _ => none
  | fuel + 1, a =>
    if a.isMark "\x7d" then a.next
    else do
      let (_, a) ← outerName a
      let a ← a.expect ":"
      match a.token with
      | .string _ =>
        let a ← a.next
        if a.isMark "," then attributes fuel (← a.next) else a.expect "\x7d"
      | _ => none

/-- The source of an import or export, with attributes and the end of the statement. -/
def moduleSource (a : Ahead) : Option Ahead :=
  match a.token with
  | .string _ => do
    let a ← a.next
    let a ←
      if a.isWord "with" || (a.isWord "assert" && !a.newLine) then do
        let a ← a.next
        attributes g.fuel (← a.expect "\x7b")
      else some a
    a.semicolon
  | _ => none

def fromSource (a : Ahead) : Option Ahead := do g.moduleSource (← a.expectWord "from")

/-- The names that an import binds apart from a first default name: all of a module, or some. -/
def importedNames (c : Context) (a : Ahead) : Option Ahead :=
  if a.isMark "*" then do
    let a ← a.next
    let (_, a) ← variableName c (← a.expectWord "as")
    g.fromSource a
  else do
    let (names, a) ← specifiers c g.fuel [] (← a.expect "\x7b")
    if names.all fun (_, isVariable, renamed) => (renamed.map (·.2)).getD isVariable then g.fromSource a
    else none

/-- Whether the word here is a phase of the import and not the name that it binds. -/
def isPhase (a : Ahead) : Bool :=
  (a.isWord "source" && a.followsOnLine (fun t => t.isName && t != .name "from" false))
    || (a.isWord "defer" && a.followsOnLine (· == .mark "*"))

def importStatement (c : Context) (a : Ahead) : Option Ahead :=
  match a.token with
  | .string _ => g.moduleSource a
  | .name _ _ => do
    let a ← if isPhase a then a.next else some a
    if a.isMark "*" then g.importedNames c a
    else do
      let (_, a) ← variableName c a
      if a.isMark "," then g.importedNames c (← a.next) else g.fromSource a
  | _ => g.importedNames c a

def exportDefault (c : Context) (a : Ahead) : Option (Statement × Ahead) :=
  match g.namedDeclaration false c a with
  | some declared => declared.map fun (_, a) => (.exportDefaultDeclaration, a)
  | none => do
    let (e, a) ← g.assignment c a
    if e.isComplete then return (.exportDefault e, ← a.semicolon) else none

/-- Names between braces that are exported, from this module or another. -/
def exportNames (c : Context) (a : Ahead) : Option (Statement × Ahead) := do
  let (names, a) ← specifiers c g.fuel [] (← a.expect "\x7b")
  let exported := names.map fun (w, _, renamed) => (renamed.map (·.1)).getD w
  if a.isWord "from" then return (.other exported, ← g.fromSource a)
  else if names.all (·.2.1) then return (.other exported, ← a.semicolon)
  else none

/-- Everything of another module, perhaps under a name. -/
def exportAll (a : Ahead) : Option (Statement × Ahead) := do
  if a.isWord "as" then
    let (w, a) ← outerName (← a.next)
    return (.other [w], ← g.fromSource a)
  else return (.other [], ← g.fromSource a)

def exportStatement (c : Context) (a : Ahead) : Option (Statement × Ahead) :=
  if a.isWord "default" then do g.exportDefault c (← a.next)
  else if a.isMark "*" then do g.exportAll (← a.next)
  else if a.isMark "\x7b" then g.exportNames c a
  else match declarationKind? a with
    | some (kind, _) => (g.variableStatement kind c a).map fun (names, a) => (.other names, a)
    | none =>
      match g.namedDeclaration true c a with
      | some declared => declared.map fun (name, a) => (.other name.toList, a)
      | none => none

def isImportExpression (a : Ahead) : Bool :=
  match a.following with
  | .mark "(" | .mark "." => true
  | _ => false

def moduleItem (c : Context) (a : Ahead) : Option (Statement × Ahead) :=
  if a.isMark ";" then a.next.map (.empty, ·)
  else if a.isWord "export" then do g.exportStatement c (← a.next)
  else if a.isWord "import" && !isImportExpression a then do
    return (.other [], ← g.importStatement c (← a.next))
  else if a.isMark "@" then do
    let b ← g.decorators c g.fuel a
    if b.isWord "export" then g.exportStatement c (← b.next)
    else return (.other [], ← g.statement true c a)
  else (g.statement true c a).map (.other [], ·)

/-- The statements of a module up to the end; `done` has those before, the latest first. -/
def moduleItems (c : Context) : Nat → List Statement → Ahead → Option (List Statement)
  | 0, _, _ => none
  | fuel + 1, done, a =>
    if a.token = .eof then some done.reverse
    else do
      let (s, a) ← g.moduleItem c a
      moduleItems c fuel (s :: done) a

/-- Steps over directives: strings that are statements by themselves. -/
def skipDirectives (c : Context) : Nat → Ahead → Option Ahead
  | 0, _ => none
  | fuel + 1, a =>
    match a.token with
    | .string _ => do
      let (e, b) ← g.expression c a
      match e with
      | .string _ => skipDirectives c fuel (← b.semicolon)
      | _ => some a
    | _ => some a

end Grammar

/-- The text of a module without a byte order mark and a line for the system at its start. -/
def withoutHead (source : List Char) : List Char :=
  let body := match source with
    | '\ufeff' :: cs => cs
    | cs => cs
  match body with
  | '#' :: '!' :: cs => cs.dropWhile (!isLineBreak ·)
  | cs => cs

inductive ModuleFault where
  | malformed
  | exportedTwice (name : String)
deriving DecidableEq, Repr

def ModuleFault.message : ModuleFault → String
  | .malformed => "Unexpected token"
  | .exportedTwice name =>
    if name = "default" then "Duplicated default export" else "Duplicated export \x27" ++ name ++ "\x27"

/-- The first name that stands in a list for the second time. -/
def repeated? : (before : List String) → List String → Option String
  | _, [] => none
  | before, name :: names => if name ∈ before then some name else repeated? (name :: before) names

/-- A name that is exported twice. The default export is looked at last. -/
def exportedTwice? (names : List String) : Option String :=
  let named := names.filter (· ≠ "default")
  (repeated? [] named).or (repeated? [] (names.filter (· = "default")))

/-- The statements of a module by the grammar alone. Nesting and repetition are bounded by the length
of the text. -/
def moduleStatements (source : List Char) : Option (List Statement) := do
  let g := Grammar.atDepth (2 * source.length + 16)
  let a ← Ahead.read (withoutHead source)
  let a ← g.skipDirectives .module g.fuel a
  g.moduleItems .module g.fuel [] a

def parseModule (source : List Char) : Except ModuleFault (List Statement) :=
  match moduleStatements source with
  | none => .error .malformed
  | some statements =>
    match exportedTwice? (statements.flatMap Statement.exported) with
    | some name => .error (.exportedTwice name)
    | none => .ok statements

end ConfigModules.Script
