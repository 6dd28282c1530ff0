import ConfigModules.Value
import ConfigModules.Text.Hex
/-!
Values as literals of a script, on one line. Every writer takes the text that follows, so nested
literals are built in one pass and a reader's law can speak of any continuation.
-/
namespace ConfigModules.Script

/-- Control characters of both ranges. -/
def isControl (c : Char) : Bool := c.toNat < 0x20 || (0x7F ≤ c.toNat && c.toNat < 0xA0)

/-- The spelling of one character between double quotes. -/
def escape (c : Char) : List Char :=
  if c = '\x22' then ['\\', '\x22']
  else if c = '\\' then ['\\', '\\']
  else if c = '\n' then ['\\', 'n']
  else if c = '\r' then ['\\', 'r']
  else if c = '\t' then ['\\', 't']
  else if c = '\x08' then ['\\', 'b']
  else if c = '\x0c' then ['\\', 'f']
  else if c.toNat = 0x2028 ∨ c.toNat = 0x2029 ∨ isControl c then '\\' :: 'u' :: Hex.fourDigits c.toNat
  else [c]

/-- The escaped characters followed by the closing quote and `rest`. -/
def quotedTail : List Char → List Char → List Char
  | [], rest => '\x22' :: rest
  | c :: cs, rest => escape c ++ quotedTail cs rest

/-- A quoted string followed by `rest`. -/
def quoted (s : List Char) (rest : List Char) : List Char := '\x22' :: quotedTail s rest

def isNameStart (c : Char) : Bool := c.isAlpha || c = '_' || c = '$'

def isNamePart (c : Char) : Bool := isNameStart c || c.isDigit

/-- An ASCII identifier name, which may stand as a key without quotes. -/
def isPlainKey : List Char → Bool
  | [] => false
  | c :: cs => isNameStart c && cs.all isNamePart

/-- The key that would set the prototype of an object if it stood there bare or quoted. -/
def protoKey : String := "__proto__"

/-- A property key. The prototype key is computed, so that it defines a property like any other. -/
def key (k : String) (rest : List Char) : List Char :=
  if k = protoKey then '[' :: quoted k.toList (']' :: rest)
  else if isPlainKey k.toList then k.toList ++ rest
  else quoted k.toList rest

mutual

/-- The literal of a value followed by `rest`. -/
def literal : Value → List Char → List Char
  | .null, rest => "null".toList ++ rest
  | .boolean true, rest => "true".toList ++ rest
  | .boolean false, rest => "false".toList ++ rest
  | .number n, rest => n.chars ++ rest
  | .string s, rest => quoted s.toList rest
  | .sequence [], rest => '[' :: ']' :: rest
  | .sequence (v :: vs), rest => '[' :: ' ' :: literal v (moreItems vs rest)
  | .mapping [], rest => '\x7b' :: '\x7d' :: rest
  | .mapping ((k, v) :: es), rest =>
    '\x7b' :: ' ' :: key k (':' :: ' ' :: literal v (moreEntries es rest))

/-- The items after the first, the closing bracket and `rest`. -/
def moreItems : List Value → List Char → List Char
  | [], rest => ' ' :: ']' :: rest
  | v :: vs, rest => ',' :: ' ' :: literal v (moreItems vs rest)

/-- The entries after the first, the closing brace and `rest`. -/
def moreEntries : List (String × Value) → List Char → List Char
  | [], rest => ' ' :: '\x7d' :: rest
  | (k, v) :: es, rest => ',' :: ' ' :: key k (':' :: ' ' :: literal v (moreEntries es rest))

end

def literalText (v : Value) : String := String.ofList (literal v [])

/-- The module whose default export is the value. -/
def moduleText (v : Value) : String :=
  String.ofList ("export default ".toList ++ literal v [';'])

end ConfigModules.Script
