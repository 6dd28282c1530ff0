import ConfigModules.Script.Token
import ConfigModules.Script.Expression
/-!
The common ground of the script grammar. Productions are functions from the text ahead to what they
read and the text after it; `none` is a syntax error. Nested expressions and statements are reached
through a `Grammar`, whose fuel also bounds every repetition.
-/
namespace ConfigModules.Script

/-- What the place of an expression or a statement admits. -/
structure Context where
  /-- Whether `in` is an operator. -/
  allowIn : Bool
  inGenerator : Bool
  inAsync : Bool
  inFunction : Bool
deriving DecidableEq, Repr

namespace Context

/-- The top of a module, where `await` is an operator. -/
def module : Context := ⟨true, false, true, false⟩

def withIn (c : Context) : Context := { c with allowIn := true }

def withoutIn (c : Context) : Context := { c with allowIn := false }

def function (isAsync isGenerator : Bool) : Context := ⟨true, isGenerator, isAsync, true⟩

end Context

/-- The productions that nest. -/
structure Grammar where
  fuel : Nat
  assignment : Context → Ahead → Option (Expression × Ahead)
  /-- A statement, where declarations may be out of place. -/
  statement : (declarations : Bool) → Context → Ahead → Option Ahead

namespace Ahead

def isMark (a : Ahead) (m : String) : Bool := a.token == .mark m

/-- Whether a keyword stands here. Escapes spell none. -/
def isWord (a : Ahead) (w : String) : Bool := a.token == .name w false

def expect (a : Ahead) (m : String) : Option Ahead := if a.isMark m then a.next else none

def expectWord (a : Ahead) (w : String) : Option Ahead := if a.isWord w then a.next else none

/-- The token after this one. -/
def following (a : Ahead) : Token :=
  match a.next with
  | some b => b.token
  | none => .eof

/-- Whether the next token stands on the same line. -/
def followsOnLine (a : Ahead) (p : Token → Bool) : Bool :=
  match a.next with
  | some b => !b.newLine && p b.token
  | none => false

/-- The end of a statement: a semicolon, or a place where one may be left out. -/
def semicolon (a : Ahead) : Option Ahead :=
  if a.isMark ";" then a.next
  else if a.isMark "\x7d" || a.token == .eof || a.newLine then some a
  else none

end Ahead

/-- Words that never name a variable. -/
def reservedWords : List String :=
  ["break", "case", "catch", "class", "const", "continue", "debugger", "default", "delete", "do",
   "else", "enum", "export", "extends", "false", "finally", "for", "function", "if", "import", "in",
   "instanceof", "new", "null", "return", "super", "switch", "this", "throw", "true", "try",
   "typeof", "var", "void", "while", "with"]

/-- Whether a word may name a variable here. -/
def isVariableName (c : Context) (w : String) : Bool :=
  !reservedWords.contains w && !(c.inAsync && w == "await") && !(c.inGenerator && w == "yield")

def Token.isName : Token → Bool
  | .name _ _ => true
  | _ => false

def variableName (c : Context) (a : Ahead) : Option (String × Ahead) :=
  match a.token with
  | .name w _ => if isVariableName c w then a.next.map (w, ·) else none
  | _ => none

end ConfigModules.Script
