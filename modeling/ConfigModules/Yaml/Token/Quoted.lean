import ConfigModules.Yaml.Token.Basic
import ConfigModules.Yaml.Token.Gap
import ConfigModules.Text.Hex
/-! Quoted scalars: single quotes with doubled quotes, double quotes with escapes. -/
namespace ConfigModules.Yaml.Quoted

/-- The escapes of one letter in double quotes. -/
def letterEscape? (c : Char) : Option Char :=
  match c with
  | '0' => some '\x00'
  | 'a' => some '\x07'
  | 'b' => some '\x08'
  | 't' => some '\t'
  | '\t' => some '\t'
  | 'n' => some '\n'
  | 'v' => some '\x0b'
  | 'f' => some '\x0c'
  | 'r' => some '\r'
  | 'e' => some '\x1b'
  | ' ' => some ' '
  | '\x22' => some '\x22'
  | '/' => some '/'
  | '\\' => some '\\'
  | 'N' => some '\x85'
  | '_' => some '\xa0'
  | 'L' => some '\u2028'
  | 'P' => some '\u2029'
  | _ => none

/-- How many hexadecimal digits follow the letter of a numeric escape. -/
def codeLength? (c : Char) : Option Nat :=
  match c with
  | 'x' => some 2
  | 'u' => some 4
  | 'U' => some 8
  | _ => none

/-- The number that the first `n` hexadecimal digits spell. -/
def hexNumber? : Nat → List Char → Nat → Option Nat
  | 0, _, acc => some acc
  | _ + 1, [], _ => none
  | n + 1, c :: cs, acc => (Hex.value? c).bind fun d => hexNumber? n cs (acc * 16 + d)

def fault (problem : Problem) (mark start : Mark) : Fault :=
  ⟨problem, mark, some (.parseQuotedScalar, start)⟩

def readEscape (start : Mark) (c : Cursor) : Except Fault (Char × Cursor) :=
  match letterEscape? (c.peek 1) with
  | some x => .ok (x, c.skipMany 2)
  | none =>
    match codeLength? (c.peek 1) with
    | none => .error (fault .unknownEscape c.mark start)
    | some n => do
      let c := c.skipMany 2
      c.ensure (n - 1)
      match hexNumber? n c.rest 0 with
      | none => throw (fault .missingHexDigit c.mark start)
      | some code =>
        if code.isValidChar then return (Char.ofNat code, c.skipMany n)
        else throw (fault .badEscapedCode c.mark start)

/-- Reads characters up to a blank, a break or the closing quote. The text comes latest character
first; the flag tells that an escaped line break ended the word. -/
def readWord (single : Bool) (start : Mark) :
    Nat → List Char → Cursor → Except Fault (List Char × Cursor × Bool)
  | 0, text, c => .ok (text, c, false)
  | fuel + 1, text, c => do
    let x := c.peek 0
    if isBlankOrEnd x then return (text, c, false)
    else if single && x = '\x27' && c.peek 1 = '\x27' then
      let c := c.skipMany 2
      c.ensure 1
      readWord single start fuel (x :: text) c
    else if x = (if single then '\x27' else '\x22') then return (text, c, false)
    else if !single && x = '\\' && isBreak (c.peek 1) then
      c.ensure 2
      return (text, c.skip.skipBreak, true)
    else if !single && x = '\\' then
      let (y, c) ← readEscape start c
      c.ensure 1
      readWord single start fuel (y :: text) c
    else
      let c := c.skip
      c.ensure 1
      readWord single start fuel (x :: text) c

/-- Reads words and gaps up to the closing quote, where the cursor is left. -/
def readWords (single : Bool) (start : Mark) :
    Nat → List Char → Cursor → Except Fault (List Char × Cursor)
  | 0, text, c => .ok (text, c)
  | fuel + 1, text, c => do
    c.ensure 3
    if c.atDocumentBoundary then
      throw ⟨.documentIndicatorInQuotes, c.mark, some (.scanQuotedScalar, start)⟩
    if isEnd (c.peek 0) then throw ⟨.endInQuotes, c.mark, some (.scanQuotedScalar, start)⟩
    let (text, c, escaped) ← readWord single start c.rest.length text c
    c.ensure 0
    if c.peek 0 = (if single then '\x27' else '\x22') then return (text, c)
    let (gap, rest, mark, _) := Gap.read none c.rest c.mark (if escaped then .escaped else .empty)
    let c := { c with rest, mark }
    c.ensure 0
    readWords single start fuel (gap.reversedText ++ text) c

/-- Reads a quoted scalar, from its opening quote to after its closing one. -/
def read (single : Bool) (c : Cursor) : Except Fault (Token × Cursor) := do
  let (text, d) ← readWords single c.mark (c.rest.length + 1) [] c.skip
  let d := d.skip
  let style := if single then ScalarStyle.singleQuoted else .doubleQuoted
  return (⟨.scalar (String.ofList text.reverse) style, c.mark, d.mark⟩, d)

end ConfigModules.Yaml.Quoted
