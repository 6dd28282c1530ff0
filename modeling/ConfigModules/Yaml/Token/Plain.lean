import ConfigModules.Yaml.Token.Basic
import ConfigModules.Yaml.Token.Gap
/-! Plain scalars: words without quotes, over one or several lines. -/
namespace ConfigModules.Yaml.Plain

/-- Flow indicators that end a plain scalar in a flow collection. -/
def endsInFlow (c : Char) : Bool := c = ',' || c = '[' || c = ']' || c = '\x7b' || c = '\x7d'

inductive WordEnd where
  | regular
  /-- A colon before a flow indicator. -/
  | badColon

/-- Reads a word: up to a blank, a break, a colon that ends a key, or a flow indicator. -/
def readWord (inFlow : Bool) : List Char → Mark → List Char → List Char × List Char × Mark × WordEnd
  | [], m, taken => (taken, [], m, .regular)
  | c :: cs, m, taken =>
    let next := cs.headD endChar
    if isBlankOrEnd c then (taken, c :: cs, m, .regular)
    else if inFlow && c = ':' && (next = '?' || endsInFlow next) then (taken, c :: cs, m, .badColon)
    else if (c = ':' && isBlankOrEnd next) || (inFlow && endsInFlow c) then
      (taken, c :: cs, m, .regular)
    else readWord inFlow cs (m.next c) (c :: taken)

/-- Reads words and the gaps between them. A line that is indented less than `indent` ends the
scalar outside flow collections. -/
def readWords (inFlow : Bool) (indent : Int) (start : Mark) : Nat → Folded → Except Fault Folded
  | 0, s => .ok s
  | fuel + 1, s => do
    s.cursor.ensure 3
    if s.cursor.atDocumentBoundary || s.cursor.peek 0 = '#' then return s
    let (word, rest, mark, wordEnd) := readWord inFlow s.cursor.rest s.cursor.mark []
    let cursor := { s.cursor with rest, mark }
    match wordEnd with
    | .badColon => throw ⟨.unexpectedColon, mark, some (.scanPlainScalar, start)⟩
    | .regular => pure ()
    cursor.ensure 1
    let s := if word.isEmpty then { s with cursor } else
      { text := word ++ (s.gap.reversedText ++ s.text), gap := .empty, stop := mark, cursor }
    if !(isBlank (cursor.peek 0) || isBreak (cursor.peek 0)) then return s
    let (gap, rest, mark, badTab) := Gap.read (some indent) cursor.rest cursor.mark s.gap
    if badTab then throw ⟨.tabViolatesIndentation, mark, some (.scanPlainScalar, start)⟩
    let cursor := { cursor with rest, mark }
    cursor.ensure 0
    let s := { s with gap, cursor }
    if !inFlow && (mark.column : Int) < indent then return s
    readWords inFlow indent start fuel s

/-- Reads a plain scalar in a block of the given indentation: the token, the rest, and whether the
scalar was left at the start of a line, so that a key may follow. -/
def read (inFlow : Bool) (indent : Int) (c : Cursor) : Except Fault (Token × Cursor × Bool) := do
  let s ← readWords inFlow (indent + 1) c.mark (c.rest.length + 1) ⟨[], .empty, c.mark, c⟩
  return (⟨.scalar (String.ofList s.text.reverse) .plain, c.mark, s.stop⟩, s.cursor, s.gap.broken)

end ConfigModules.Yaml.Plain
