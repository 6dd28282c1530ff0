import ConfigModules.Double.Nearest
/-!
What is kept of a script module. Expressions that are data are kept whole. Of all others only as much
is kept as tells whether they may be assigned to or stand for the parameters of an arrow function.
-/
namespace ConfigModules.Script

/-- The name that a property has in the text. -/
inductive PropertyKey where
  | identifier (name : String)
  | string (s : String)
  | number (x : Double)
  /-- Any other key. -/
  | other
deriving DecidableEq, Repr

mutual

inductive Expression where
  | null
  | boolean (b : Bool)
  | number (x : Double)
  | string (s : String)
  | identifier (name : String)
  | negation (e : Expression)
  | parenthesized (e : Expression)
  | array (elements : List Element)
  | object (members : List Member)
  /-- A property of another value, which can be assigned to. -/
  | access
  /-- An assignment with a plain equals sign, which in a pattern gives a default. -/
  | assignment (target : Expression)
  /-- Parameters before an arrow. -/
  | arrowHead
  /-- Any other expression. -/
  | other

inductive Element where
  | item (e : Expression)
  | hole
  | spread (e : Expression)

inductive Member where
  | property (key : PropertyKey) (computed : Bool) (value : Expression)
  /-- A name with a default, which only a pattern may have. -/
  | nameWithDefault (name : String)
  | method
  | spread (e : Expression)

end

instance : Inhabited Expression := ⟨.other⟩

/-- A statement at the top of a module, with the names that it exports. -/
inductive Statement where
  | empty
  | exportDefault (e : Expression)
  | exportDefaultDeclaration
  | other (exported : List String)

namespace Statement

def exported : Statement → List String
  | .empty => []
  | .exportDefault _ => ["default"]
  | .exportDefaultDeclaration => ["default"]
  | .other names => names

end Statement

mutual

/-- Whether an expression can stand as it is: no name with a default and no bare parameters in it. -/
def Expression.isComplete : Expression → Bool
  | .negation e => e.isComplete
  | .parenthesized e => e.isComplete
  | .array elements => elementsComplete elements
  | .object members => membersComplete members
  | .arrowHead => false
  | _ => true

def elementsComplete : List Element → Bool
  | [] => true
  | .item e :: es => e.isComplete && elementsComplete es
  | .hole :: es => elementsComplete es
  | .spread e :: es => e.isComplete && elementsComplete es

def membersComplete : List Member → Bool
  | [] => true
  | .property _ _ e :: ms => e.isComplete && membersComplete ms
  | .nameWithDefault _ :: _ => false
  | .method :: ms => membersComplete ms
  | .spread e :: ms => e.isComplete && membersComplete ms

end

mutual

/-- Whether an expression can be assigned to. Patterns of bindings admit names only, and no
parentheses. -/
def Expression.isTarget (binding : Bool) : Expression → Bool
  | .identifier _ => true
  | .access => !binding
  | .parenthesized e => !binding && e.isSimpleTarget
  | .array elements => elementsAreTargets binding elements
  | .object members => membersAreTargets binding members
  | _ => false

/-- Whether an expression is a name or a property, perhaps in parentheses. -/
def Expression.isSimpleTarget : Expression → Bool
  | .identifier _ => true
  | .access => true
  | .parenthesized e => e.isSimpleTarget
  | _ => false

/-- Whether an expression is a target, perhaps with a default. -/
def Expression.isTargetWithDefault (binding : Bool) : Expression → Bool
  | .assignment e => e.isTarget binding
  | .identifier _ => true
  | .access => !binding
  | .parenthesized e => !binding && e.isSimpleTarget
  | .array elements => elementsAreTargets binding elements
  | .object members => membersAreTargets binding members
  | _ => false

def elementsAreTargets (binding : Bool) : List Element → Bool
  | [] => true
  | .item e :: es => e.isTargetWithDefault binding && elementsAreTargets binding es
  | .hole :: es => elementsAreTargets binding es
  | .spread e :: es => e.isTarget binding && es.isEmpty

def membersAreTargets (binding : Bool) : List Member → Bool
  | [] => true
  | .property _ _ e :: ms => e.isTargetWithDefault binding && membersAreTargets binding ms
  | .nameWithDefault _ :: ms => membersAreTargets binding ms
  | .method :: _ => false
  | .spread e :: ms => (if binding then e.isBindingName else e.isSimpleTarget) && ms.isEmpty

def Expression.isBindingName : Expression → Bool
  | .identifier _ => true
  | _ => false

end

end ConfigModules.Script
