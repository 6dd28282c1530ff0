import ConfigModules.Script.Grammar.Basic
/-!
Expressions. Binary operators are read as one flat chain: which operand belongs to which operator
makes no difference to what is accepted, except that `??` does not mix with the other logical
operators and that a power has no bare unary operand on its left.
-/
namespace ConfigModules.Script

namespace Grammar

variable (g : Grammar)

/-- An expression that must be complete, with `in` as an operator. -/
def whole (c : Context) (a : Ahead) : Option Ahead := do
  let (e, a) ← g.assignment c.withIn a
  if e.isComplete then some a else none

def moreExpressions (c : Context) : Nat → Ahead → Option Ahead
  | 0, _ => none
  | fuel + 1, a =>
    if a.isMark "," then do
      let a ← a.next
      let (e, a) ← g.assignment c a
      if e.isComplete then moreExpressions c fuel a else none
    else some a

def expression (c : Context) (a : Ahead) : Option (Expression × Ahead) := do
  let (e, a) ← g.assignment c a
  if a.isMark "," then
    if !e.isComplete then none
    else return (.other, ← g.moreExpressions c g.fuel a)
  else return (e, a)

/-- A complete comma expression, with `in` as an operator. -/
def wholeExpression (c : Context) (a : Ahead) : Option Ahead := do
  let (e, a) ← g.expression c.withIn a
  if e.isComplete then some a else none

/-- The elements of an array up to its bracket; `done` has those before, the latest first. -/
def elements (c : Context) : Nat → List Element → Ahead → Option (List Element × Ahead)
  | 0, _, _ => none
  | fuel + 1, done, a =>
    if a.isMark "]" then a.next.map (done.reverse, ·)
    else if a.isMark "," then do elements c fuel (.hole :: done) (← a.next)
    else do
      let spread := a.isMark "..."
      let a ← if spread then a.next else some a
      let (e, a) ← g.assignment c.withIn a
      let done := (if spread then Element.spread e else .item e) :: done
      if a.isMark "," then elements c fuel done (← a.next)
      else return (done.reverse, ← a.expect "]")

def array (c : Context) (a : Ahead) : Option (Expression × Ahead) := do
  let (es, a) ← g.elements c g.fuel [] (← a.expect "[")
  return (.array es, a)

/-- Expressions in parentheses, the opening one taken, each with a flag for a spread; `done` has
those before, the latest first. The last flag tells that a comma stands at the end. -/
def listed (c : Context) : Nat → List (Bool × Expression) → Ahead →
    Option ((List (Bool × Expression) × Bool) × Ahead)
  | 0, _, _ => none
  | fuel + 1, done, a =>
    if a.isMark ")" then a.next.map ((done.reverse, !done.isEmpty), ·)
    else do
      let spread := a.isMark "..."
      let a ← if spread then a.next else some a
      let (e, a) ← g.assignment c.withIn a
      let done := (spread, e) :: done
      if a.isMark "," then listed c fuel done (← a.next)
      else return ((done.reverse, false), ← a.expect ")")

/-- Whether listed expressions can be parameters: targets of bindings, with a spread only at the
very end. -/
def areParameters : List (Bool × Expression) → (comma : Bool) → Bool
  | [], _ => true
  | [(true, e)], comma => e.isTarget true && !comma
  | (true, _) :: _, _ => false
  | (false, e) :: es, comma => e.isTargetWithDefault true && areParameters es comma

def beforeArrow (a : Ahead) : Bool := a.isMark "=>" && !a.newLine

/-- The inside of parentheses that begin an operand: an expression, or the head of an arrow
function. -/
def parentheses (c : Context) (a : Ahead) : Option (Expression × Ahead) := do
  let ((items, comma), a) ← g.listed c g.fuel [] (← a.expect "(")
  if beforeArrow a && areParameters items comma then some (.arrowHead, a)
  else if comma || items.any (·.1) then none
  else match items with
    | [] => none
    | [(_, e)] => some (.parenthesized e, a)
    | items => if items.all (·.2.isComplete) then some (.other, a) else none

def arguments (c : Context) (a : Ahead) : Option Ahead := do
  let ((items, _), a) ← g.listed c g.fuel [] (← a.expect "(")
  if items.all (·.2.isComplete) then some a else none

/-- Skips one escape of a template; the flag tells whether it is well formed. -/
def templateEscape (cs : List Char) : Bool × List Char :=
  match cs with
  | [] => (true, [])
  | c :: rest =>
    if c = 'x' ∨ c = 'u' then
      match StringText.escape? cs with
      | some (_, rest) => (true, rest)
      | none => (false, rest)
    else if c = '0' then (!(rest.head?.any Char.isDigit), rest)
    else if c.isDigit then (false, rest)
    else (true, rest)

/-- Skips template characters up to its quote or to a substitution (`true`). With `anyEscape`,
malformed escapes are let through. -/
def templateChars (anyEscape : Bool) : Nat → List Char → Option (Bool × List Char)
  | 0, _ => none
  | _ + 1, [] => none
  | fuel + 1, c :: cs =>
    if c = '\x60' then some (false, cs)
    else if c = '$' ∧ cs.head? = some '\x7b' then some (true, cs.tail)
    else if c = '\\' then
      let (ok, rest) := templateEscape cs
      if ok || anyEscape then templateChars anyEscape fuel rest else none
    else templateChars anyEscape fuel cs

def templateFrom (anyEscape : Bool) (c : Context) : Nat → List Char → Option Ahead
  | 0, _ => none
  | fuel + 1, cs => do
    let (substitution, rest) ← templateChars anyEscape (cs.length + 1) cs
    let a ← Ahead.read rest
    if !substitution then return a
    let a ← g.wholeExpression c a
    if a.isMark "\x7d" then templateFrom anyEscape c fuel a.rest else none

/-- A template, whose opening quote stands ahead. -/
def template (tagged : Bool) (c : Context) (a : Ahead) : Option Ahead :=
  g.templateFrom tagged c g.fuel a.rest

/-- The body of a regular expression after its slash. -/
def regexBody : (inClass : Bool) → List Char → Option (List Char)
  | _, [] => none
  | inClass, '\\' :: c :: cs => if isLineBreak c then none else regexBody inClass cs
  | inClass, c :: cs =>
    if isLineBreak c then none
    else if c = '/' && !inClass then some cs
    else regexBody (if c = '[' then true else if c = ']' then false else inClass) cs

/-- A regular expression, whose slash stands ahead. Flags are known ones, each at most once. -/
def regex (a : Ahead) : Option Ahead := do
  let rest ← regexBody false a.here.tail
  let isFlag (x : Char) : Bool := x.isAlphanum || x = '$' || x = '_'
  let flags := rest.takeWhile isFlag
  if flags.all ("dgimsuvy".toList.contains ·) && flags.eraseDups.length = flags.length then
    Ahead.read (rest.dropWhile isFlag)
  else none

/-- The parameters of a function, the opening parenthesis taken. -/
def parametersFrom (c : Context) : Nat → Ahead → Option Ahead
  | 0, _ => none
  | fuel + 1, a =>
    if a.isMark ")" then a.next
    else if a.isMark "..." then do
      let (e, a) ← g.assignment c.withIn (← a.next)
      if e.isTarget true then a.expect ")" else none
    else do
      let (e, a) ← g.assignment c.withIn a
      if !e.isTargetWithDefault true then none
      else if a.isMark "," then parametersFrom c fuel (← a.next)
      else a.expect ")"

/-- Statements up to a closing brace, which is taken. -/
def statementsFrom (c : Context) : Nat → Ahead → Option Ahead
  | 0, _ => none
  | fuel + 1, a =>
    if a.isMark "\x7d" then a.next
    else do statementsFrom c fuel (← g.statement true c.withIn a)

def block (c : Context) (a : Ahead) : Option Ahead := do
  g.statementsFrom c g.fuel (← a.expect "\x7b")

def functionRest (isAsync isGenerator : Bool) (a : Ahead) : Option Ahead := do
  let c := Context.function isAsync isGenerator
  let a ← g.parametersFrom c g.fuel (← a.expect "(")
  g.block c a

/-- A function after its keyword: an optional star, a name, and the rest. -/
def function (isAsync nameNeeded : Bool) (c : Context) (a : Ahead) : Option (Option String × Ahead) := do
  let isGenerator := a.isMark "*"
  let a ← if isGenerator then a.next else some a
  match a.token with
  | .name w _ =>
    if isVariableName c w then return (some w, ← g.functionRest isAsync isGenerator (← a.next)) else none
  | _ => if nameNeeded then none else return (none, ← g.functionRest isAsync isGenerator a)

def arrowBody (isAsync : Bool) (c : Context) (a : Ahead) : Option Ahead :=
  let inner : Context := { Context.function isAsync false with allowIn := c.allowIn }
  if a.isMark "\x7b" then g.block { inner with allowIn := true } a
  else do
    let (e, a) ← g.assignment { inner with inFunction := c.inFunction, inAsync := isAsync || c.inAsync } a
    if e.isComplete then some a else none

/-- The name of a property; the flag tells that it is computed. -/
def propertyKey (c : Context) (a : Ahead) : Option ((PropertyKey × Bool) × Ahead) :=
  match a.token with
  | .name w _ => a.next.map ((.identifier w, false), ·)
  | .string s => a.next.map ((.string s, false), ·)
  | .number x => a.next.map ((.number x, false), ·)
  | .integer => a.next.map ((.other, false), ·)
  | .mark "[" => do
    let (e, a) ← g.assignment c.withIn (← a.next)
    if !e.isComplete then none
    else
      let key := match e with
        | .string s => PropertyKey.string s
        | .number x => .number x
        | _ => .other
      return ((key, true), ← a.expect "]")
  | _ => none

/-- Whether a word is followed by another property name, so that it is a modifier. -/
def isModifier (a : Ahead) (w : String) (lineMatters : Bool) : Bool :=
  a.isWord w && match a.next with
    | some b => !(lineMatters && b.newLine) && match b.token with
      | .name _ _ | .string _ | .number _ | .integer | .privateName | .mark "[" => true
      | .mark "*" => w == "async"
      | _ => false
    | none => false

/-- A method from its name on, with the modifiers before it. -/
def methodRest (isAsync isGenerator : Bool) (c : Context) (a : Ahead) : Option Ahead := do
  let a ← if a.token == .privateName then a.next else (g.propertyKey c a).map (·.2)
  g.functionRest isAsync isGenerator a

/-- A member of an object that starts with a plain name or another key. -/
def property (c : Context) (a : Ahead) : Option (Member × Ahead) := do
  let ((key, computed), b) ← g.propertyKey c a
  if b.isMark ":" then
    let (e, b) ← g.assignment c.withIn (← b.next)
    return (.property key computed e, b)
  else if b.isMark "(" then return (.method, ← g.functionRest false false b)
  else
    match a.token with
    | .name w _ =>
      if !isVariableName c w then none
      else if b.isMark "=" then
        let (e, b) ← g.assignment c.withIn (← b.next)
        if e.isComplete then return (.nameWithDefault w, b) else none
      else return (.property key false (.identifier w), b)
    | _ => none

def member (c : Context) (a : Ahead) : Option (Member × Ahead) :=
  if a.isMark "..." then do
    let (e, a) ← g.assignment c.withIn (← a.next)
    return (.spread e, a)
  else if a.isMark "*" then do return (.method, ← g.methodRest false true c (← a.next))
  else if isModifier a "get" false || isModifier a "set" false then do
    return (.method, ← g.methodRest false false c (← a.next))
  else if isModifier a "async" true then do
    let a ← a.next
    let isGenerator := a.isMark "*"
    let a ← if isGenerator then a.next else some a
    return (.method, ← g.methodRest true isGenerator c a)
  else g.property c a

/-- The members of an object up to its brace; `done` has those before, the latest first. -/
def members (c : Context) : Nat → List Member → Ahead → Option (List Member × Ahead)
  | 0, _, _ => none
  | fuel + 1, done, a =>
    if a.isMark "\x7d" then a.next.map (done.reverse, ·)
    else do
      let (m, a) ← g.member c a
      if a.isMark "," then members c fuel (m :: done) (← a.next)
      else return ((m :: done).reverse, ← a.expect "\x7d")

def object (c : Context) (a : Ahead) : Option (Expression × Ahead) := do
  let (ms, a) ← g.members c g.fuel [] (← a.expect "\x7b")
  return (.object ms, a)

def decorators (c : Context) : Nat → Ahead → Option Ahead
  | 0, _ => none
  | fuel + 1, a =>
    if a.isMark "@" then do
      let a ← a.next
      let a ← if a.isMark "(" then g.arguments c a else do
        let (_, a) ← variableName c a
        decoratorPath fuel a
      let a ← if a.isMark "(" then g.arguments c a else some a
      decorators c fuel a
    else some a
where
  /-- The names after the first one of a decorator. -/
  decoratorPath : Nat → Ahead → Option Ahead
    | 0, _ => none
    | fuel + 1, a =>
      if a.isMark "." then do
        let a ← a.next
        if a.token.isName || a.token == .privateName then decoratorPath fuel (← a.next) else none
      else some a

/-- A field or a method of a class after its modifiers. -/
def classField (isAsync isGenerator onlyMethod : Bool) (c : Context) (a : Ahead) : Option Ahead := do
  let a ← if a.token == .privateName then a.next else (g.propertyKey c a).map (·.2)
  if a.isMark "(" then g.functionRest isAsync isGenerator a
  else if onlyMethod then none
  else if a.isMark "=" then
    let (e, a) ← g.assignment (.function false false) (← a.next)
    if e.isComplete then a.semicolon else none
  else a.semicolon

/-- A member of a class, `static` apart. -/
def classMember (c : Context) (a : Ahead) : Option Ahead :=
  if a.isMark "*" then do g.classField false true true c (← a.next)
  else if isModifier a "get" false || isModifier a "set" false then do
    g.classField false false true c (← a.next)
  else if isModifier a "accessor" true then do g.classField false false false c (← a.next)
  else if isModifier a "async" true then do
    let a ← a.next
    let isGenerator := a.isMark "*"
    let a ← if isGenerator then a.next else some a
    g.classField true isGenerator true c a
  else g.classField false false false c a

def classMembers (c : Context) : Nat → Ahead → Option Ahead
  | 0, _ => none
  | fuel + 1, a =>
    if a.isMark "\x7d" then a.next
    else if a.isMark ";" then do classMembers c fuel (← a.next)
    else do
      let a ← g.decorators c g.fuel a
      let a ←
        if a.isWord "static" then
          match a.following with
          | .mark "\x7b" => do g.block { Context.function true false with inFunction := false } (← a.next)
          | .mark "(" | .mark "=" | .mark ";" | .mark "\x7d" => g.classMember c a
          | _ => do g.classMember c (← a.next)
        else g.classMember c a
      classMembers c fuel a

/-- Names and properties and calls after an operand; `calls` admits calls and optional chains. -/
def suffixes (calls : Bool) (c : Context) : Nat → Expression → Ahead → Option (Expression × Ahead)
  | 0, _, _ => none
  | fuel + 1, e, a =>
    if a.isMark "." then
      if !e.isComplete then none
      else do
        let a ← a.next
        if a.token.isName || a.token == .privateName then suffixes calls c fuel .access (← a.next)
        else none
    else if a.isMark "[" then
      if !e.isComplete then none
      else do
        let a ← g.wholeExpression c (← a.next)
        suffixes calls c fuel .access (← a.expect "]")
    else if a.isMark "\x60" then
      if !e.isComplete then none else do suffixes calls c fuel .other (← g.template true c a)
    else if a.isMark "(" && calls then
      if !e.isComplete then none
      else do
        let isAsync := match e with
          | .identifier w => w == "async" && !a.newLine
          | _ => false
        let ((items, comma), a) ← g.listed c g.fuel [] (← a.next)
        if isAsync && beforeArrow a && areParameters items comma then some (.arrowHead, a)
        else if items.all (·.2.isComplete) then suffixes calls c fuel .other a
        else none
    else if a.isMark "?." && calls then
      if !e.isComplete then none
      else do
        let a ← a.next
        if a.isMark "(" then suffixes calls c fuel .other (← g.arguments c a)
        else if a.isMark "[" then
          let a ← g.wholeExpression c (← a.next)
          chainEnd (← suffixes calls c fuel .other (← a.expect "]"))
        else if a.token.isName || a.token == .privateName then
          chainEnd (← suffixes calls c fuel .other (← a.next))
        else none
    else some (e, a)
where
  /-- What an optional chain reaches cannot be assigned to, and takes no template. -/
  chainEnd : Expression × Ahead → Option (Expression × Ahead)
    | (.access, a) => some (.other, a)
    | r => some r

def classRest (nameNeeded : Bool) (c : Context) (a : Ahead) : Option (Option String × Ahead) := do
  let (name, a) ←
    if a.isWord "extends" || a.isMark "\x7b" then
      if nameNeeded then none else some (none, a)
    else do
      let (w, a) ← variableName c a
      some (some w, a)
  let a ← if a.isWord "extends" then heritage (← a.next) else some a
  let a ← g.classMembers c g.fuel (← a.expect "\x7b")
  return (name, a)
where
  /-- The class that is extended. A brace after it begins the body. -/
  heritage (a : Ahead) : Option Ahead := do
    let (e, a) ← g.assignment c.withIn a
    if e.isComplete then some a else none

/-- The target of `new`, the keyword taken: a property of it, another `new`, or an operand without
calls, and then perhaps arguments. -/
def newTarget (c : Context) (primary : Ahead → Option (Expression × Ahead)) : Nat → Ahead → Option Ahead
  | 0, _ => none
  | fuel + 1, a =>
    if a.isMark "." then do
      let a ← a.next
      a.expectWord "target"
    else do
      let a ←
        if a.isWord "new" then do
          let b ← a.next
          let isMeta := b.isMark "."
          let b ← newTarget c primary fuel b
          if isMeta then (g.suffixes false c g.fuel .other b).map (·.2) else some b
        else if a.isWord "import" && a.following == .mark "(" then none
        else do
          let (e, a) ← primary a
          let (_, a) ← g.suffixes false c g.fuel e a
          some a
      if a.isMark "?." then none
      else if a.isMark "(" then g.arguments c a
      else some a

/-- What follows the keyword `import` in an expression: the module's own data, or a call. -/
def importRest (c : Context) (a : Ahead) : Option Ahead :=
  if a.isMark "(" then call a
  else if a.isMark "." then do
    let a ← a.next
    if a.isWord "meta" then a.next
    else if a.isWord "source" || a.isWord "defer" then do
      let a ← a.next
      if a.isMark "(" then call a else none
    else none
  else none
where
  /-- One argument, perhaps options, perhaps a last comma. -/
  call (a : Ahead) : Option Ahead := do
    let ((items, _), a) ← g.listed c g.fuel [] (← a.next)
    if (items.length = 1 || items.length = 2) && items.all (fun i => !i.1 && i.2.isComplete) then some a
    else none

def word (c : Context) (w : String) (escaped : Bool) (a : Ahead) : Option (Expression × Ahead) :=
  if escaped then identifier
  else if w == "null" then a.next.map (.null, ·)
  else if w == "true" then a.next.map (.boolean true, ·)
  else if w == "false" then a.next.map (.boolean false, ·)
  else if w == "this" then a.next.map (.other, ·)
  else if w == "function" then do return (.other, (← g.function false false c (← a.next)).2)
  else if w == "class" then do return (.other, (← g.classRest false c (← a.next)).2)
  else if w == "import" then do return (.other, ← g.importRest c (← a.next))
  else if w == "super" then do
    let a ← a.next
    if a.isMark "(" || a.isMark "." || a.isMark "[" then some (.other, a) else none
  else if w == "async" && a.followsOnLine (· == .name "function" false) then do
    let a ← a.next
    return (.other, (← g.function true false c (← a.next)).2)
  else if w == "async" && a.followsOnLine Token.isName then do
    let b ← a.next
    match variableName { c with inAsync := true } b with
    | some (_, b) => if beforeArrow b then some (.arrowHead, b) else identifier
    | none => identifier
  else identifier
where
  identifier : Option (Expression × Ahead) := (variableName c a).map fun (w, a) => (.identifier w, a)

/-- An operand without operators and suffixes. -/
def primary (c : Context) (a : Ahead) : Option (Expression × Ahead) :=
  match a.token with
  | .number x => a.next.map (.number x, ·)
  | .string s => a.next.map (.string s, ·)
  | .integer => a.next.map (.other, ·)
  | .name w escaped => g.word c w escaped a
  | .privateName => do
    let a ← a.next
    if a.isWord "in" && c.allowIn then some (.other, a) else none
  | .mark "(" => g.parentheses c a
  | .mark "[" => g.array c a
  | .mark "\x7b" => g.object c a
  | .mark "\x60" => (g.template false c a).map (.other, ·)
  | .mark "/" => (regex a).map (.other, ·)
  | .mark "/=" => (regex a).map (.other, ·)
  | .mark "@" => do
    let a ← g.decorators c g.fuel a
    return (.other, (← g.classRest false c (← a.expectWord "class")).2)
  | _ => none

def leftHandSide (c : Context) (a : Ahead) : Option (Expression × Ahead) :=
  if a.isWord "new" then do
    let a ← g.newTarget c (g.primary c) g.fuel (← a.next)
    g.suffixes true c g.fuel .other a
  else do
    let (e, a) ← g.primary c a
    g.suffixes true c g.fuel e a

/-- An operand with its unary operators, and whether there are any. -/
def operand (c : Context) : Nat → Ahead → Option ((Expression × Bool) × Ahead)
  | 0, _ => none
  | fuel + 1, a =>
    if a.isMark "-" then do
      let ((e, _), a) ← operand c fuel (← a.next)
      return ((.negation e, true), a)
    else if a.isMark "+" || a.isMark "~" || a.isMark "!" || a.isWord "typeof" || a.isWord "void"
        || a.isWord "delete" || (c.inAsync && a.isWord "await") then do
      let ((e, _), a) ← operand c fuel (← a.next)
      if e.isComplete then some ((.other, true), a) else none
    else if a.isMark "++" || a.isMark "--" then do
      let ((e, _), a) ← operand c fuel (← a.next)
      if e.isSimpleTarget then some ((.other, false), a) else none
    else do
      let (e, a) ← g.leftHandSide c a
      if (a.isMark "++" || a.isMark "--") && !a.newLine then
        if e.isSimpleTarget then return ((.other, false), ← a.next) else none
      else some ((e, false), a)

/-- The logical operators of a chain, which must not be of both kinds. -/
inductive LogicKind where
  | none
  | logical
  | coalescing
deriving DecidableEq

/-- The kind after one more operator, unless the two do not mix. -/
def LogicKind.with (k : LogicKind) (op : String) : Option LogicKind :=
  let new := if op == "??" then LogicKind.coalescing
    else if op == "||" || op == "&&" then .logical else .none
  if new = .none then some k
  else if k = .none ∨ k = new then some new
  else Option.none

/-- The binary operators, `in` and `instanceof` apart. -/
def binaryMarks : List String :=
  ["+", "-", "*", "/", "%", "**", "<<", ">>", ">>>", "<", ">", "<=", ">=", "==", "!=", "===", "!==",
   "&", "|", "^", "&&", "||", "??"]

def binaryOperator? (c : Context) (a : Ahead) : Option String :=
  match a.token with
  | .mark m => if binaryMarks.contains m then some m else none
  | .name w false => if w == "instanceof" || (w == "in" && c.allowIn) then some w else none
  | _ => none

/-- The rest of a chain of binary operators. The operand before is complete; `unary` tells whether
it has a bare unary operator. -/
def chain (c : Context) : Nat → (unary : Bool) → LogicKind → Ahead → Option Ahead
  | 0, _, _, _ => none
  | fuel + 1, unary, kind, a =>
    match binaryOperator? c a with
    | none => some a
    | some op =>
      if op == "**" && unary then none
      else do
        let kind ← kind.with op
        let ((e, unary), a) ← g.operand c g.fuel (← a.next)
        if e.isComplete then chain c fuel unary kind a else none

/-- Operators, then perhaps a choice between two expressions. -/
def conditional (c : Context) (a : Ahead) : Option (Expression × Ahead) := do
  let ((e, unary), a) ← g.operand c g.fuel a
  let (e, a) ←
    if (binaryOperator? c a).isSome then
      if !e.isComplete then none
      else do
        let a ← g.chain c g.fuel unary .none a
        some (.other, a)
    else some (e, a)
  if a.isMark "?" then
    if !e.isComplete then none
    else do
      let a ← g.whole c (← a.next)
      let (f, a) ← g.assignment c (← a.expect ":")
      if f.isComplete then some (.other, a) else none
  else some (e, a)

/-- The operators that assign to a name or a property. -/
def assigningMarks : List String :=
  ["+=", "-=", "*=", "/=", "%=", "**=", "<<=", ">>=", ">>>=", "&=", "|=", "^=", "&&=", "||=", "??="]

/-- The rest of `yield`: nothing at the end of a line or of an expression, or an expression. -/
def yieldRest (c : Context) (a : Ahead) : Option Ahead :=
  if a.newLine then some a
  else if a.isMark "*" then do
    let (e, a) ← g.assignment c (← a.next)
    if e.isComplete then some a else none
  else match a.token with
    | .eof | .mark ")" | .mark "]" | .mark "\x7d" | .mark "," | .mark ";" | .mark ":" => some a
    | .name "in" false => some a
    | _ => do
      let (e, a) ← g.assignment c a
      if e.isComplete then some a else none

/-- An expression without commas: an assignment, an arrow function, or an operand with operators. -/
def assignmentStep (c : Context) (a : Ahead) : Option (Expression × Ahead) := do
  if c.inGenerator && a.isWord "yield" then
    return (.other, ← g.yieldRest c (← a.next))
  let isAsync := a.isWord "async"
  let (e, b) ← g.conditional c a
  match e with
  | .arrowHead => if beforeArrow b then return (.other, ← g.arrowBody isAsync c (← b.next)) else none
  | .identifier _ =>
    if beforeArrow b then return (.other, ← g.arrowBody false c (← b.next)) else assign e b
  | e => assign e b
where
  assign (e : Expression) (b : Ahead) : Option (Expression × Ahead) :=
    if b.isMark "=" then
      if !e.isTarget false then none
      else do
        let (v, b) ← g.assignment c (← b.next)
        if v.isComplete then some (.assignment e, b) else none
    else match b.token with
      | .mark m =>
        if assigningMarks.contains m then
          if !e.isSimpleTarget then none
          else do
            let (v, b) ← g.assignment c (← b.next)
            if v.isComplete then some (.other, b) else none
        else some (e, b)
      | _ => some (e, b)

end Grammar

end ConfigModules.Script
