import ConfigModules.Yaml.Token.Plain
import ConfigModules.Yaml.Token.Quoted
import ConfigModules.Yaml.Token.Block
import ConfigModules.Yaml.Token.Tag
/-!
The tokens of a source. A key without indicator is recognised by the colon after it, so tokens wait
in a queue while one of them may still become a key; the key token is then put before it. Scanning
goes on to the end of the source or to the first fault, and the tokens before a fault are kept.
-/
namespace ConfigModules.Yaml

/-- A place where a key may have begun. -/
structure KeyStart where
  /-- Whether only a key can stand there. -/
  required : Bool
  /-- The number of its first token, from the start of the source. -/
  number : Nat
  mark : Mark
deriving Repr

structure Scan where
  cursor : Cursor
  /-- Tokens that wait, the earliest first. -/
  queue : List Token
  /-- How many tokens have left the queue. -/
  delivered : Nat
  /-- Whether a key may start at the next token. -/
  keyAllowed : Bool
  /-- The possible key of the innermost collection. -/
  key : Option KeyStart
  /-- The possible keys of the collections around, one for each open flow collection. -/
  outerKeys : List (Option KeyStart)
  indent : Int
  indents : List Int

namespace Scan

def initial (source : List Char) : Scan :=
  { cursor := .ofChars source, queue := [⟨.streamStart, Mark.start, Mark.start⟩], delivered := 0,
    keyAllowed := true, key := none, outerKeys := [], indent := -1, indents := [] }

def inFlow (s : Scan) : Bool := !s.outerKeys.isEmpty

def mark (s : Scan) : Mark := s.cursor.mark

def push (s : Scan) (t : Token) : Scan := { s with queue := s.queue ++ [t] }

def insertAt (s : Scan) (number : Nat) (t : Token) : Scan :=
  { s with queue := s.queue.insertIdx (number - s.delivered) t }

/-- Steps over `n` characters, which make up a token. -/
def take (s : Scan) (kind : TokenKind) (n : Nat) : Scan :=
  let cursor := s.cursor.skipMany n
  { s with cursor, queue := s.queue ++ [⟨kind, s.mark, cursor.mark⟩] }

def missingColon (s : Scan) (k : KeyStart) : Fault :=
  ⟨.missingColon, s.mark, some (.scanSimpleKey, k.mark)⟩

/-- Gives up the possible key; one that was required is a fault. -/
def dropKey (s : Scan) : Except Fault Scan :=
  match s.key with
  | none => .ok s
  | some k => if k.required then .error (s.missingColon k) else .ok { s with key := none }

/-- Whether a key that began there can no longer end here: it fits on a line and in 1024 bytes. -/
def isStale (s : Scan) (k : KeyStart) : Bool :=
  k.mark.line < s.mark.line || k.mark.index + 1024 < s.mark.index

def dropIfStale (s : Scan) : Option KeyStart → Except Fault (Option KeyStart)
  | none => .ok none
  | some k =>
    if s.isStale k then if k.required then .error (s.missingColon k) else .ok none
    else .ok (some k)

/-- Gives up all stale keys, from the outermost collection to the innermost. -/
def dropStaleKeys (s : Scan) : Except Fault Scan := do
  let outer ← s.outerKeys.reverse.mapM s.dropIfStale
  let key ← s.dropIfStale s.key
  return { s with key, outerKeys := outer.reverse }

/-- Notes that a key may begin at the next token. -/
def saveKey (s : Scan) : Except Fault Scan := do
  if !s.keyAllowed then return s
  let required := !s.inFlow && s.indent = s.mark.column
  let s ← s.dropKey
  return { s with key := some ⟨required, s.delivered + s.queue.length, s.mark⟩ }

/-- Opens a block collection at a column right of the present one; `place` puts its token. -/
def roll (s : Scan) (column : Nat) (place : Scan → Scan) : Scan :=
  if !s.inFlow && s.indent < column then
    place { s with indents := s.indent :: s.indents, indent := column }
  else s

/-- Closes the block collections right of a column. -/
def unrollTo (column : Int) (m : Mark) : List Int → Int → List Token → List Int × Int × List Token
  | [], indent, closed => ([], indent, closed)
  | outer :: indents, indent, closed =>
    if indent > column then unrollTo column m indents outer (⟨.blockEnd, m, m⟩ :: closed)
    else (outer :: indents, indent, closed)

def unroll (s : Scan) (column : Int) : Scan :=
  if s.inFlow then s
  else
    let (indents, indent, closed) := unrollTo column s.mark s.indents s.indent []
    { s with indents, indent, queue := s.queue ++ closed }

/-- Steps over blanks, comments and line breaks. A tab counts as a blank where no key may begin. A
byte order mark may start a line. -/
def gapFrom (inFlow : Bool) :
    List Char → Mark → (keyAllowed inComment : Bool) → List Char × Mark × Bool
  | [], m, allowed, _ => ([], m, allowed)
  | '\r' :: '\n' :: cs, m, allowed, _ => gapFrom inFlow cs (m.nextLine 2) (allowed || !inFlow) false
  | c :: cs, m, allowed, inComment =>
    if isBreak c then gapFrom inFlow cs (m.nextLine c.utf8Size) (allowed || !inFlow) false
    else if inComment then gapFrom inFlow cs (m.next c) allowed true
    else if c = ' ' || (c = '\t' && (inFlow || !allowed)) || (c = byteOrderMark && m.column = 0) then
      gapFrom inFlow cs (m.next c) allowed false
    else if c = '#' then gapFrom inFlow cs (m.next c) allowed true
    else (c :: cs, m, allowed)

def skipGap (s : Scan) : Except Fault Scan := do
  let (rest, mark, keyAllowed) := gapFrom s.inFlow s.cursor.rest s.cursor.mark s.keyAllowed false
  let cursor := { s.cursor with rest, mark }
  cursor.ensure 0
  return { s with cursor, keyAllowed }

/-- The end of the source. A last line without break ends all the same. -/
def streamEnd (s : Scan) : Except Fault Scan := do
  let m := s.mark
  let mark := if m.column = 0 then m else { m with line := m.line + 1, column := 0 }
  let s := { s with cursor := { s.cursor with mark } }.unroll (-1)
  let s ← s.dropKey
  return { s with keyAllowed := false }.take .streamEnd 0

def directive (s : Scan) : Except Fault Scan := do
  let s ← (s.unroll (-1)).dropKey
  let (t, cursor) ← Directive.read s.cursor
  return { s with cursor, keyAllowed := false }.push t

def documentIndicator (s : Scan) (kind : TokenKind) : Except Fault Scan := do
  let s ← (s.unroll (-1)).dropKey
  return { s with keyAllowed := false }.take kind 3

def flowStart (s : Scan) (kind : TokenKind) : Except Fault Scan := do
  let s ← s.saveKey
  return { s with key := none, outerKeys := s.key :: s.outerKeys, keyAllowed := true }.take kind 1

def flowEnd (s : Scan) (kind : TokenKind) : Except Fault Scan := do
  let s ← s.dropKey
  let s := match s.outerKeys with
    | [] => s
    | key :: outerKeys => { s with key, outerKeys }
  return { s with keyAllowed := false }.take kind 1

def flowEntry (s : Scan) : Except Fault Scan := do
  let s ← s.dropKey
  return { s with keyAllowed := true }.take .flowEntry 1

/-- Opens a block collection at the present place, where its kind must be allowed. -/
def blockStart (s : Scan) (kind : TokenKind) (problem : Problem) : Except Fault Scan :=
  if s.inFlow then .ok s
  else if s.keyAllowed then .ok (s.roll s.mark.column (·.push ⟨kind, s.mark, s.mark⟩))
  else .error ⟨problem, s.mark, none⟩

def blockEntry (s : Scan) : Except Fault Scan := do
  let s ← s.blockStart .blockSequenceStart .sequenceEntryNotAllowed
  let s ← s.dropKey
  return { s with keyAllowed := true }.take .blockEntry 1

def keyIndicator (s : Scan) : Except Fault Scan := do
  let s ← s.blockStart .blockMappingStart .mappingKeyNotAllowed
  let s ← s.dropKey
  return { s with keyAllowed := !s.inFlow }.take .key 1

/-- A colon: either the possible key before it becomes one, or the key is empty. -/
def valueIndicator (s : Scan) : Except Fault Scan := do
  match s.key with
  | some k =>
    let s := s.insertAt k.number ⟨.key, k.mark, k.mark⟩
    let s := s.roll k.mark.column (·.insertAt k.number ⟨.blockMappingStart, k.mark, k.mark⟩)
    return { s with key := none, keyAllowed := false }.take .value 1
  | none =>
    let s ← s.blockStart .blockMappingStart .mappingValueNotAllowed
    return { s with keyAllowed := !s.inFlow }.take .value 1

/-- A token that may begin a key but lets none begin after it. -/
def keyPart (s : Scan) (read : Cursor → Except Fault (Token × Cursor)) : Except Fault Scan := do
  let s ← s.saveKey
  let (t, cursor) ← read s.cursor
  return { s with cursor, keyAllowed := false }.push t

def plain (s : Scan) : Except Fault Scan := do
  let s ← s.saveKey
  let (t, cursor, atLineStart) ← Plain.read s.inFlow s.indent s.cursor
  return { s with cursor, keyAllowed := atLineStart }.push t

def blockScalar (s : Scan) (folded : Bool) : Except Fault Scan := do
  let s ← s.dropKey
  let (t, cursor) ← Block.read folded s.indent s.cursor
  return { s with cursor, keyAllowed := true }.push t

/-- Indicators that cannot begin a plain scalar. -/
def isIndicator (c : Char) : Bool := "-?:,[]\x7b\x7d#&*!|>'\x22%@\x60".toList.contains c

/-- Whether a plain scalar begins with `c` when `next` follows. -/
def startsPlain (inFlow : Bool) (c next : Char) : Bool :=
  !(isBlankOrEnd c || isIndicator c) || (c = '-' && !isBlank next)
    || (!inFlow && (c = '?' || c = ':') && !isBlankOrEnd next)

def readToken (s : Scan) : Except Fault Scan :=
  let c := s.cursor.peek 0
  let next := s.cursor.peek 1
  if isEnd c then s.streamEnd
  else if c = '%' ∧ s.mark.column = 0 then s.directive
  else if s.cursor.atIndicator '-' then s.documentIndicator .documentStart
  else if s.cursor.atIndicator '.' then s.documentIndicator .documentEnd
  else if c = '[' then s.flowStart .flowSequenceStart
  else if c = '\x7b' then s.flowStart .flowMappingStart
  else if c = ']' then s.flowEnd .flowSequenceEnd
  else if c = '\x7d' then s.flowEnd .flowMappingEnd
  else if c = ',' then s.flowEntry
  else if c = '-' ∧ isBlankOrEnd next then s.blockEntry
  else if c = '?' ∧ (s.inFlow ∨ isBlankOrEnd next) then s.keyIndicator
  else if c = ':' ∧ (s.inFlow ∨ isBlankOrEnd next) then s.valueIndicator
  else if c = '*' then s.keyPart (readName true)
  else if c = '&' then s.keyPart (readName false)
  else if c = '!' then s.keyPart (Tag.read s.inFlow)
  else if c = '|' ∧ !s.inFlow then s.blockScalar false
  else if c = '>' ∧ !s.inFlow then s.blockScalar true
  else if c = '\x27' then s.keyPart (Quoted.read true)
  else if c = '\x22' then s.keyPart (Quoted.read false)
  else if startsPlain s.inFlow c next then s.plain
  else .error ⟨.noTokenStart, s.mark, some (.scanNextToken, s.mark)⟩

/-- Steps to the next token, closes what ends before it, and reads it. -/
def step (s : Scan) : Except Fault Scan := do
  s.cursor.ensure 0
  let s ← s.skipGap
  let s ← s.dropStaleKeys
  let s := s.unroll s.mark.column
  s.cursor.ensure 3
  s.readToken

/-- Whether the first token in the queue may still turn out to be part of a key. -/
def awaitsKey (s : Scan) : Bool :=
  (s.key :: s.outerKeys).any fun k => k.any (·.number = s.delivered)

/-- Moves the tokens that are settled from the queue onto `out`, the latest first. -/
def deliver : List Token → Scan → List Token → List Token × Scan
  | [], s, out => (out, { s with queue := [] })
  | t :: queue, s, out =>
    if s.awaitsKey then (out, { s with queue := t :: queue })
    else deliver queue { s with delivered := s.delivered + 1 } (t :: out)

/-- Scans on. The delivered tokens, latest first, are in `out`; once the end has been delivered
there is nothing more. -/
def run : Nat → Scan → List Token → List Token × Option Fault
  | 0, _, out => (out.reverse, none)
  | fuel + 1, s, out =>
    let settled := do
      let s ← if s.queue.isEmpty then pure s else s.dropStaleKeys
      return deliver s.queue s out
    match settled with
    | .error e => (out.reverse, some e)
    | .ok (out, s) =>
      match out with
      | ⟨.streamEnd, _, _⟩ :: _ => (out.reverse, none)
      | _ =>
        match s.step with
        | .error e => (out.reverse, some e)
        | .ok s => run fuel s out

end Scan

/-- The tokens of a source up to its end or to the first fault. -/
def scan (source : List Char) : List Token × Option Fault :=
  let s := Scan.initial source
  match s.cursor.ensure 0 with
  | .error e => ([], some e)
  | .ok () => s.run (source.length + 3) []

end ConfigModules.Yaml
