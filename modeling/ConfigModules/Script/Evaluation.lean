import ConfigModules.Script.Module
import ConfigModules.Script.Literal
/-!
Evaluation of data modules. The default export of a module is folded back into a value if it is built
from literals only. Statements are taken in order, and the parts of an expression too, so the first
thing that is no data is reported.
-/
namespace ConfigModules.Script

/-- What is no data. -/
inductive Construct where
  | declaration
  | statement
  | identifier (name : String)
  | negation (kind : String)
  | holeOrSpread
  | spreadProperty
  | method
  | propertyKey
  | expression
deriving DecidableEq, Repr

def Construct.text : Construct → String
  | .declaration => "default export of a declaration"
  | .statement => "statement other than \x60export default\x60"
  | .identifier name => "identifier \x60" ++ name ++ "\x60"
  | .negation kind => "negation of a " ++ kind
  | .holeOrSpread => "array hole or spread"
  | .spreadProperty => "spread property"
  | .method => "accessor or method"
  | .propertyKey => "property key"
  | .expression => "non-literal expression"

inductive EvaluationError where
  | notAModule (fault : ModuleFault)
  | noDefaultExport
  | unsupported (construct : Construct)
  | protoKey
  | duplicateKey (name : String)
deriving DecidableEq, Repr

def EvaluationError.message : EvaluationError → String
  | .notAModule fault => "Parse error: " ++ fault.message
  | .noDefaultExport => "Module has no default export"
  | .unsupported construct => "Unsupported construct: " ++ construct.text
  | .protoKey => "A bare " ++ Script.protoKey ++ " key sets the prototype instead of defining a property"
  | .duplicateKey name => "Duplicate property: " ++ name

/-- The name of a property. Only a computed key may have the name that sets the prototype. -/
def PropertyKey.name (computed : Bool) : PropertyKey → Except EvaluationError String
  | .identifier w =>
    if computed then .error (.unsupported .propertyKey)
    else if w = Script.protoKey then .error .protoKey
    else .ok w
  | .string s => if !computed && s = Script.protoKey then .error .protoKey else .ok s
  | .number x => .ok (Number.real x).propertyKey
  | .other => .error (.unsupported .propertyKey)

/-- The opposite of a number; other values have none. -/
def negated : Value → Except EvaluationError Value
  | .number n => .ok (.number (.real (-n.asDouble)))
  | v => .error (.unsupported (.negation v.kind))

mutual

def Expression.evaluate : Expression → Except EvaluationError Value
  | .null => .ok .null
  | .boolean b => .ok (.boolean b)
  | .number x => .ok (.number (.real x))
  | .string s => .ok (.string s)
  | .identifier w =>
    if w = "Infinity" then .ok (.number (.real (.infinite false)))
    else if w = "NaN" then .ok (.number (.real .nan))
    else .error (.unsupported (.identifier w))
  | .negation e =>
    match e.evaluate with
    | .ok v => negated v
    | .error f => .error f
  | .parenthesized e => e.evaluate
  | .array elements =>
    match elementValues elements [] with
    | .ok values => .ok (.sequence values)
    | .error f => .error f
  | .object members =>
    match memberValues members ∅ with
    | .ok m => .ok (Value.ofMapping m)
    | .error f => .error f
  | .access => .error (.unsupported .expression)
  | .assignment _ => .error (.unsupported .expression)
  | .arrowHead => .error (.unsupported .expression)
  | .other => .error (.unsupported .expression)

/-- The values of elements; `done` has those before, the latest first. -/
def elementValues : List Element → (done : List Value) → Except EvaluationError (List Value)
  | [], done => .ok done.reverse
  | .item e :: es, done =>
    match e.evaluate with
    | .ok v => elementValues es (v :: done)
    | .error f => .error f
  | .hole :: _, _ => .error (.unsupported .holeOrSpread)
  | .spread _ :: _, _ => .error (.unsupported .holeOrSpread)

/-- Adds properties to a mapping: the key comes first, then the value, then the look for the same
key among the properties before. -/
def memberValues : List Member → Mapping Value → Except EvaluationError (Mapping Value)
  | [], m => .ok m
  | .property key computed e :: ms, m =>
    match key.name computed with
    | .error f => .error f
    | .ok name =>
      match e.evaluate with
      | .error f => .error f
      | .ok v => if m.isNew name then memberValues ms (m.insertNew name v) else .error (.duplicateKey name)
  | .nameWithDefault _ :: _, _ => .error (.unsupported .expression)
  | .method :: _, _ => .error (.unsupported .method)
  | .spread _ :: _, _ => .error (.unsupported .spreadProperty)

end

/-- The value of the last default export; `found` is that of the statements before. -/
def evaluateStatements : List Statement → (found : Option Value) → Except EvaluationError Value
  | [], some v => .ok v
  | [], none => .error .noDefaultExport
  | .empty :: ss, found => evaluateStatements ss found
  | .exportDefault e :: ss, _ =>
    match e.evaluate with
    | .ok v => evaluateStatements ss (some v)
    | .error f => .error f
  | .exportDefaultDeclaration :: _, _ => .error (.unsupported .declaration)
  | .other _ :: _, _ => .error (.unsupported .statement)

def evaluateChars (source : List Char) : Except EvaluationError Value :=
  match parseModule source with
  | .error fault => .error (.notAModule fault)
  | .ok statements => evaluateStatements statements none

def evaluate (code : String) : Except EvaluationError Value := evaluateChars code.toList

end ConfigModules.Script
