import ConfigModules.Script.Grammar.Expressions
/-! Statements, and the declarations among them. -/
namespace ConfigModules.Script

mutual

def Expression.boundNames : Expression → List String
  | .identifier w => [w]
  | .assignment e => e.boundNames
  | .array elements => elementNames elements
  | .object members => memberNames members
  | _ => []

def elementNames : List Element → List String
  | [] => []
  | .item e :: es => e.boundNames ++ elementNames es
  | .hole :: es => elementNames es
  | .spread e :: es => e.boundNames ++ elementNames es

def memberNames : List Member → List String
  | [] => []
  | .property _ _ e :: ms => e.boundNames ++ memberNames ms
  | .nameWithDefault w :: ms => w :: memberNames ms
  | .method :: ms => memberNames ms
  | .spread e :: ms => e.boundNames ++ memberNames ms

end

namespace Grammar

variable (g : Grammar)

/-- A name or a pattern that a declaration binds. -/
def binding (c : Context) (a : Ahead) : Option (Expression × Ahead) :=
  if a.isMark "[" || a.isMark "\x7b" then do
    let (e, a) ← g.primary c a
    if e.isTarget true then some (e, a) else none
  else (variableName c a).map fun (w, a) => (.identifier w, a)

inductive DeclarationKind where
  | plain
  /-- A constant, which needs a value. -/
  | constant
deriving DecidableEq

/-- Whether a declaration without value may stand here: a plain name that is not constant. -/
def mayBeBare (kind : DeclarationKind) (e : Expression) : Bool :=
  kind == .plain && e.isBindingName

/-- The variables of a declaration: the names bound, whether there is exactly one variable without
value, and whether one lacks the value that it needs. -/
structure Declared where
  names : List String
  lone : Bool
  lacking : Bool

def declarators (kind : DeclarationKind) (c : Context) : Nat → Declared → Ahead → Option (Declared × Ahead)
  | 0, _, _ => none
  | fuel + 1, d, a => do
    let (e, a) ← g.binding c.withIn a
    let names := d.names ++ e.boundNames
    let (d, a) ←
      if a.isMark "=" then do
        let (v, a) ← g.assignment c (← a.next)
        if v.isComplete then some (⟨names, false, d.lacking⟩, a) else none
      else some (⟨names, d.lone, d.lacking || !mayBeBare kind e⟩, a)
    if a.isMark "," then declarators kind c fuel { d with lone := false } (← a.next)
    else return (d, a)

def beginsLet (a : Ahead) : Bool :=
  a.isWord "let" && match a.following with
    | .name w _ => w != "in" && w != "instanceof" && w != "of"
    | .mark "[" | .mark "\x7b" => true
    | _ => false

def beginsUsing (a : Ahead) : Bool :=
  a.isWord "using" && a.followsOnLine fun t => match t with
    | .name w _ => w != "in" && w != "instanceof" && w != "of"
    | _ => false

/-- The kind of the variable declaration that stands here, and whether it is scoped to a block. -/
def declarationKind? (a : Ahead) : Option (DeclarationKind × Bool) :=
  if a.isWord "var" then some (.plain, false)
  else if a.isWord "const" then some (.constant, true)
  else if beginsLet a then some (.plain, true)
  else if beginsUsing a then some (.constant, true)
  else none

/-- A variable declaration with its end; gives the names. -/
def variableStatement (kind : DeclarationKind) (c : Context) (a : Ahead) :
    Option (List String × Ahead) := do
  let (d, a) ← g.declarators kind c g.fuel ⟨[], true, false⟩ (← a.next)
  if d.lacking then none else return (d.names, ← a.semicolon)

def condition (c : Context) (a : Ahead) : Option Ahead := do
  let a ← a.expect "("
  let a ← g.wholeExpression c a
  a.expect ")"

/-- The head of a `for` from the first semicolon on. -/
def forRest (c : Context) (a : Ahead) : Option Ahead := do
  let a ← a.expect ";"
  let a ← if a.isMark ";" then some a else g.wholeExpression c a
  let a ← a.expect ";"
  let a ← if a.isMark ")" then some a else g.wholeExpression c a
  a.expect ")"

/-- The head of a `for` over the elements or the keys of an expression, from the keyword on. -/
def forEach (c : Context) (a : Ahead) : Option Ahead := do
  let isOf := a.isWord "of"
  let a ← a.next
  let a ← if isOf then g.whole c a else g.wholeExpression c a
  a.expect ")"

/-- The head of a `for`, the opening parenthesis taken. -/
def forHead (onlyOf : Bool) (c : Context) (a : Ahead) : Option Ahead :=
  let isEach (a : Ahead) : Bool := a.isWord "of" || (a.isWord "in" && !onlyOf)
  if a.isMark ";" then if onlyOf then none else g.forRest c a
  else match declarationKind? a with
    | some (kind, _) => do
      let (d, a) ← g.declarators kind c.withoutIn g.fuel ⟨[], true, false⟩ (← a.next)
      if isEach a && d.lone then g.forEach c a
      else if d.lacking || onlyOf then none
      else g.forRest c a
    | none => do
      let (e, a) ← g.expression c.withoutIn a
      if isEach a then if e.isTarget false then g.forEach c a else none
      else if e.isComplete && !onlyOf then g.forRest c a
      else none

def cases (c : Context) : Nat → (hasDefault : Bool) → Ahead → Option Ahead
  | 0, _, _ => none
  | fuel + 1, hasDefault, a =>
    if a.isMark "\x7d" then a.next
    else if a.isWord "case" then do
      let a ← g.wholeExpression c (← a.next)
      cases c fuel hasDefault (← caseBody fuel (← a.expect ":"))
    else if a.isWord "default" && !hasDefault then do
      let a ← a.next
      cases c fuel true (← caseBody fuel (← a.expect ":"))
    else none
where
  /-- The statements of one case. -/
  caseBody : Nat → Ahead → Option Ahead
    | 0, _ => none
    | fuel + 1, a =>
      if a.isMark "\x7d" || a.isWord "case" || a.isWord "default" then some a
      else do caseBody fuel (← g.statement true c a)

/-- The handlers after the block of a `try`: at least one of the two. -/
def handlers (c : Context) (a : Ahead) : Option Ahead := do
  let caught := a.isWord "catch"
  let a ←
    if caught then do
      let a ← a.next
      let a ←
        if a.isMark "(" then do
          let (_, a) ← g.binding c (← a.next)
          a.expect ")"
        else some a
      g.block c a
    else some a
  if a.isWord "finally" then g.block c (← a.next)
  else if caught then some a
  else none

/-- An expression as a statement, or a statement with a label. -/
def expressionStatement (c : Context) (a : Ahead) : Option Ahead :=
  match a.token, a.following with
  | .name w _, .mark ":" => do
    if isVariableName c w then
      let a ← a.next
      g.statement false c (← a.next)
    else none
  | _, _ => do
    let (e, a) ← g.expression c a
    if e.isComplete then a.semicolon else none

/-- What follows `break` and `continue`: a label on the same line, and the end. -/
def jump (c : Context) (a : Ahead) : Option Ahead :=
  if a.token.isName && !a.newLine then do
    let (_, a) ← variableName c a
    a.semicolon
  else a.semicolon

def keywordStatement (w : String) (c : Context) (a : Ahead) : Option (Option Ahead) :=
  match w with
  | "if" => some do
    let a ← g.condition c (← a.next)
    let a ← g.statement false c a
    if a.isWord "else" then g.statement false c (← a.next) else some a
  | "for" => some do
    let a ← a.next
    let onlyOf := a.isWord "await"
    let a ← if onlyOf then if c.inAsync then a.next else none else some a
    let a ← g.forHead onlyOf c (← a.expect "(")
    g.statement false c a
  | "while" => some do
    let a ← g.condition c (← a.next)
    g.statement false c a
  | "do" => some do
    let a ← g.statement false c (← a.next)
    let a ← g.condition c (← a.expectWord "while")
    if a.isMark ";" then a.next else some a
  | "continue" => some do jump c (← a.next)
  | "break" => some do jump c (← a.next)
  | "return" => some do
    let a ← a.next
    if !c.inFunction then none
    else match a.semicolon with
      | some b => some b
      | none => do
        let a ← g.wholeExpression c a
        a.semicolon
  | "with" => some do
    let a ← g.condition c (← a.next)
    g.statement false c a
  | "switch" => some do
    let a ← g.condition c (← a.next)
    g.cases c g.fuel false (← a.expect "\x7b")
  | "throw" => some do
    let a ← a.next
    if a.newLine then none
    else do
      let a ← g.wholeExpression c a
      a.semicolon
  | "try" => some do
    let a ← g.block c (← a.next)
    g.handlers c a
  | "debugger" => some do
    let a ← a.next
    a.semicolon
  | _ => none

/-- A declaration of a function or a class; gives its name. -/
def namedDeclaration (nameNeeded : Bool) (c : Context) (a : Ahead) :
    Option (Option (Option String × Ahead)) :=
  if a.isWord "function" then some do g.function false nameNeeded c (← a.next)
  else if a.isWord "async" && a.followsOnLine (· == .name "function" false) then some do
    let a ← a.next
    g.function true nameNeeded c (← a.next)
  else if a.isWord "class" then some do g.classRest nameNeeded c (← a.next)
  else if a.isMark "@" then some do
    let a ← g.decorators c g.fuel a
    g.classRest nameNeeded c (← a.expectWord "class")
  else none

/-- Whether a declaration of a class, or of a function that is more than plain, stands here. -/
def isScopedDeclaration (a : Ahead) : Bool :=
  a.isWord "class" || a.isMark "@" || a.isWord "async" || a.following == .mark "*"

/-- A statement. Where declarations are out of place, plain functions are let through. -/
def statementStep (declarations : Bool) (c : Context) (a : Ahead) : Option Ahead :=
  if a.isMark "\x7b" then g.block c a
  else if a.isMark ";" then a.next
  else match declarationKind? a with
    | some (kind, inBlock) =>
      if inBlock && !declarations then none else (g.variableStatement kind c a).map (·.2)
    | none =>
      match g.namedDeclaration true c a with
      | some declared =>
        if isScopedDeclaration a && !declarations then none else declared.map (·.2)
      | none =>
        match a.token with
        | .name w false =>
          match g.keywordStatement w c a with
          | some parsed => parsed
          | none => g.expressionStatement c a
        | _ => g.expressionStatement c a

end Grammar

mutual

/-- Expressions nested at most `n` deep. -/
def assignmentAt : Nat → Context → Ahead → Option (Expression × Ahead)
  | 0, _, _ => none
  | n + 1, c, a => Grammar.assignmentStep ⟨n, assignmentAt n, statementAt n⟩ c a

/-- Statements nested at most `n` deep. -/
def statementAt : Nat → Bool → Context → Ahead → Option Ahead
  | 0, _, _, _ => none
  | n + 1, declarations, c, a =>
    Grammar.statementStep ⟨n, assignmentAt n, statementAt n⟩ declarations c a

end

def Grammar.atDepth (n : Nat) : Grammar := ⟨n, assignmentAt n, statementAt n⟩

end ConfigModules.Script
