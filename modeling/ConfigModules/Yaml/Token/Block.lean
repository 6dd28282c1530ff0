import ConfigModules.Yaml.Token.Basic
import ConfigModules.Yaml.Cursor
/-! Block scalars: literal and folded lines below a header. -/
namespace ConfigModules.Yaml.Block

/-- What becomes of the line breaks at the end. -/
inductive Chomping where
  | strip
  | clip
  | keep
deriving DecidableEq, Repr

structure Header where
  chomping : Chomping
  /-- The indentation relative to the parent, if the header gives it. -/
  increment : Option Nat
deriving DecidableEq, Repr

def fault (problem : Problem) (mark start : Mark) : Fault :=
  ⟨problem, mark, some (.scanBlockScalar, start)⟩

def chomping? (c : Char) : Option Chomping :=
  if c = '+' then some .keep else if c = '-' then some .strip else none

/-- Reads the indentation digit, which is not zero. -/
def readIncrement (start : Mark) (c : Cursor) : Except Fault (Option Nat × Cursor) :=
  let x := c.peek 0
  if x = '0' then .error (fault .zeroIndentation c.mark start)
  else if x.isDigit then .ok (some (x.toNat - '0'.toNat), c.skip)
  else .ok (none, c)

/-- Reads the header: a chomping mark and an indentation digit in either order. -/
def readHeader (start : Mark) (c : Cursor) : Except Fault (Header × Cursor) :=
  match chomping? (c.peek 0) with
  | some chomping => do
    let c := c.skip
    c.ensure 0
    let (increment, c) ← readIncrement start c
    return (⟨chomping, increment⟩, c)
  | none => do
    let (increment, c) ← readIncrement start c
    if increment.isNone then return (⟨.clip, none⟩, c)
    c.ensure 0
    match chomping? (c.peek 0) with
    | some chomping => return (⟨chomping, increment⟩, c.skip)
    | none => return (⟨.clip, increment⟩, c)

/-- The result of reading indentation and empty lines. -/
structure Margin where
  /-- The breaks of the empty lines, latest first. -/
  breaks : List Char
  /-- The widest run of spaces seen. -/
  widest : Nat
  /-- Where the last empty line ended. -/
  stop : Mark
  rest : List Char
  mark : Mark
  /-- Whether a tab stands where indentation is due. -/
  badTab : Bool

/-- Reads indentation up to `indent` columns (0: any) and the breaks of empty lines. -/
def readMargin (indent : Nat) :
    List Char → Mark → (breaks : List Char) → (widest : Nat) → (stop : Mark) → Margin
  | [], m, breaks, widest, stop => ⟨breaks, max widest m.column, stop, [], m, false⟩
  | '\r' :: '\n' :: cs, m, breaks, widest, _ =>
    readMargin indent cs (m.nextLine 2) ('\n' :: breaks) (max widest m.column) (m.nextLine 2)
  | c :: cs, m, breaks, widest, stop =>
    let inMargin := indent = 0 || m.column < indent
    if inMargin && c = ' ' then readMargin indent cs (m.next c) breaks widest stop
    else if inMargin && c = '\t' then ⟨breaks, max widest m.column, stop, c :: cs, m, true⟩
    else if isBreak c then
      let m' := m.nextLine c.utf8Size
      readMargin indent cs m' (breakText c :: breaks) (max widest m.column) m'
    else ⟨breaks, max widest m.column, stop, c :: cs, m, false⟩

/-- Reads the margin at a cursor, where a forbidden character or a misplaced tab is a fault. -/
def marginAt (start : Mark) (indent : Nat) (c : Cursor) : Except Fault (Margin × Cursor) := do
  let margin := readMargin indent c.rest c.mark [] 0 c.mark
  let c := { c with rest := margin.rest, mark := margin.mark }
  c.ensure 0
  if margin.badTab then throw (fault .tabInIndentation c.mark start)
  return (margin, c)

structure Lines where
  /-- The text without what follows, latest character first. -/
  text : List Char
  /-- The break after the last line. -/
  lead : Option Char
  /-- The breaks of the empty lines after it, latest first. -/
  trail : List Char
  /-- Whether the last line began with a blank: such lines are not folded. -/
  spaced : Bool
  stop : Mark

/-- The text with the pending breaks, before a line that begins with a blank or not: between two
folded lines a lone break is a space and the first of several breaks is dropped. -/
def Lines.joined (s : Lines) (folded nextSpaced : Bool) : List Char :=
  if folded && s.lead = some '\n' && !s.spaced && !nextSpaced then
    if s.trail.isEmpty then ' ' :: s.text else s.trail ++ s.text
  else s.trail ++ (s.lead.toList ++ s.text)

/-- Reads the lines that stand at the indentation. -/
def readLines (folded : Bool) (start : Mark) (indent : Nat) :
    Nat → Lines → Cursor → Except Fault (Lines × Cursor)
  | 0, s, c => .ok (s, c)
  | fuel + 1, s, c => do
    if c.mark.column != indent || isEnd (c.peek 0) then return (s, c)
    let spaced := isBlank (c.peek 0)
    let text := s.joined folded spaced
    let (line, c) := c.takeRun (!isBreak ·)
    c.ensure 1
    let (lead, c) := c.takeBreak
    let (margin, c) ← marginAt start indent c
    readLines folded start indent fuel
      ⟨line.reverse ++ text, lead, margin.breaks, spaced, margin.stop⟩ c

/-- Reads a block scalar inside a block of the given indentation. -/
def read (folded : Bool) (parentIndent : Int) (c : Cursor) : Except Fault (Token × Cursor) := do
  let start := c.mark
  let c := c.skip
  c.ensure 0
  let (header, c) ← readHeader start c
  c.ensure 0
  let c := c.skipRun isBlank
  c.ensure 0
  let c := c.skipComment
  c.ensure 0
  if !isBreakOrEnd (c.peek 0) then throw (fault .missingCommentOrBreak c.mark start)
  if isBreak (c.peek 0) then c.ensure 1
  let c := c.skipBreak
  let given := header.increment.map fun n => (max parentIndent 0).toNat + n
  let (margin, c) ← marginAt start (given.getD 0) c
  let indent := given.getD (max margin.widest (max (parentIndent + 1).toNat 1))
  let (s, c) ← readLines folded start indent (c.rest.length + 1)
    ⟨[], none, margin.breaks, false, margin.stop⟩ c
  let text := match header.chomping with
    | .strip => s.text
    | .clip => s.lead.toList ++ s.text
    | .keep => s.trail ++ (s.lead.toList ++ s.text)
  let style := if folded then ScalarStyle.folded else .literal
  return (⟨.scalar (String.ofList text.reverse) style, start, s.stop⟩, c)

end ConfigModules.Yaml.Block
