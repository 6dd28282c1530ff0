import ConfigModules.Yaml.Token.Scan
/-!
The events of a source: documents, collections and scalars in reading order, with the tags already
expanded. They are made from tokens by a machine that holds what it expects next and a stack of what
it expects after the present node. A fault of the tokens shows when the machine asks for more.
-/
namespace ConfigModules.Yaml

/-- What a node may carry before its content. -/
structure Properties where
  anchor : Option String
  tag : Option TagBytes
deriving DecidableEq, Repr

inductive EventKind where
  | documentStart
  | documentEnd
  | aliasTo (name : String)
  | scalar (properties : Properties) (text : String) (style : ScalarStyle)
  | sequenceStart (properties : Properties)
  | sequenceEnd
  | mappingStart (properties : Properties)
  | mappingEnd
  | streamEnd
deriving DecidableEq, Repr

structure Event where
  kind : EventKind
  mark : Mark
deriving DecidableEq, Repr

/-- What comes next. -/
inductive Expectation where
  | streamStart
  | firstDocument
  | document
  | documentContent
  | documentEnd
  | blockNode
  | firstBlockEntry
  | blockEntry
  | indentlessEntry
  | firstBlockKey
  | blockKey
  | blockValue
  | firstFlowEntry
  | flowEntry
  | pairKey
  | pairValue
  | pairEnd
  | firstFlowKey
  | flowKey
  | flowValue
  | flowEmptyValue
deriving DecidableEq, Repr

structure Reading where
  tokens : List Token
  /-- The fault after the tokens. -/
  fault : Option Fault
  next : Expectation
  /-- What is expected after the present node, the innermost first. -/
  after : List Expectation
  /-- Where the open collections began, the innermost first. -/
  opened : List Mark
  /-- The tag handles of the document and their expansions. -/
  handles : List (String × TagBytes)

namespace Reading

/-- The fault of asking for a token that is not there. -/
def ended (r : Reading) : Fault :=
  r.fault.getD ⟨.missingNodeContent, Mark.start, none⟩

def peek (r : Reading) : Except Fault Token :=
  match r.tokens with
  | t :: _ => .ok t
  | [] => .error r.ended

def skip (r : Reading) : Reading := { r with tokens := r.tokens.tail }

/-- Turns to what is expected after the node. -/
def pop (r : Reading) : Reading :=
  match r.after with
  | e :: after => { r with next := e, after }
  | [] => r

def close (r : Reading) : Reading := { r.pop with opened := r.opened.tail }

def push (r : Reading) (e : Expectation) : Reading := { r with after := e :: r.after }

/-- Enters a collection at its first token. -/
def enter (r : Reading) (m : Mark) : Reading := { r.skip with opened := m :: r.opened }

def openedAt (r : Reading) : Mark := r.opened.headD Mark.start

abbrev Step := Except Fault (Event × Reading)

def emptyScalar (r : Reading) (m : Mark) : Event × Reading :=
  (⟨.scalar ⟨none, none⟩ "" .plain, m⟩, r)

def expandTag (r : Reading) (start : Mark) (handle : String) (suffix : TagBytes) (m : Mark) :
    Except Fault TagBytes :=
  if handle = "" then .ok suffix
  else match r.handles.lookup handle with
    | some expansion => .ok (expansion ++ suffix)
    | none => .error ⟨.undefinedTagHandle, m, some (.parseNode, start)⟩

/-- The properties at the head of the tokens: an anchor and a tag in either order. -/
structure Head where
  anchor : Option String
  tag : Option (String × TagBytes × Mark)
  rest : Reading

def anchorThenTag (r : Reading) (name : String) : Except Fault Head := do
  let r := r.skip
  let t ← r.peek
  match t.kind with
  | .tag handle suffix => return ⟨some name, some (handle, suffix, t.start), r.skip⟩
  | _ => return ⟨some name, none, r⟩

def tagThenAnchor (r : Reading) (tag : String × TagBytes × Mark) : Except Fault Head := do
  let r := r.skip
  let t ← r.peek
  match t.kind with
  | .anchor name => return ⟨some name, some tag, r.skip⟩
  | _ => return ⟨none, some tag, r⟩

def readHead (r : Reading) : Except Fault Head := do
  let t ← r.peek
  match t.kind with
  | .anchor name => r.anchorThenTag name
  | .tag handle suffix => r.tagThenAnchor (handle, suffix, t.start)
  | _ => return ⟨none, none, r⟩

/-- The tag of a scalar. The tag that is only a bang is dropped. -/
def scalarTag (tag : Option TagBytes) : Option TagBytes :=
  if tag = some (Tag.asciiBytes ['!']) then none else tag

def readContent (r : Reading) (block indentless : Bool) (start : Mark) (p : Properties) : Step := do
  let t ← r.peek
  match t.kind with
  | .blockEntry =>
    if indentless then return (⟨.sequenceStart p, start⟩, { r with next := .indentlessEntry })
    else missing t
  | .scalar text style =>
    return (⟨.scalar ⟨p.anchor, scalarTag p.tag⟩ text style, start⟩, r.skip.pop)
  | .flowSequenceStart => return (⟨.sequenceStart p, start⟩, { r with next := .firstFlowEntry })
  | .flowMappingStart => return (⟨.mappingStart p, start⟩, { r with next := .firstFlowKey })
  | .blockSequenceStart =>
    if block then return (⟨.sequenceStart p, start⟩, { r with next := .firstBlockEntry })
    else missing t
  | .blockMappingStart =>
    if block then return (⟨.mappingStart p, start⟩, { r with next := .firstBlockKey })
    else missing t
  | _ => missing t
where
  /-- A node without content is empty if it has properties, and a fault otherwise. -/
  missing (t : Token) : Step :=
    if p.anchor.isSome || p.tag.isSome then .ok (⟨.scalar p "" .plain, start⟩, r.pop)
    else .error ⟨.missingNodeContent, t.start,
      some (if block then .parseBlockNode else .parseFlowNode, start)⟩

/-- A node. `block` admits block collections, `indentless` a block sequence at the same column. -/
def readNode (r : Reading) (block indentless : Bool) : Step := do
  let t ← r.peek
  match t.kind with
  | .aliasTo name => return (⟨.aliasTo name, t.start⟩, r.skip.pop)
  | _ =>
    let head ← r.readHead
    let tag ← head.tag.mapM fun (handle, suffix, m) => r.expandTag t.start handle suffix m
    head.rest.readContent block indentless t.start ⟨head.anchor, tag⟩

/-- The handles that every document has. -/
def defaultHandles : List (String × TagBytes) :=
  [("!", Tag.asciiBytes ['!']), ("!!", Tag.asciiBytes "tag:yaml.org,2002:".toList)]

def readDirectives : List Token → Option Fault → (hasVersion : Bool) → List (String × TagBytes) →
    Except Fault (List Token × List (String × TagBytes))
  | [], fault, _, _ => .error (fault.getD ⟨.missingDocumentStart, Mark.start, none⟩)
  | t :: ts, fault, hasVersion, handles =>
    match t.kind with
    | .versionDirective major minor =>
      if hasVersion then .error ⟨.duplicateVersionDirective, t.start, none⟩
      else if major = 1 ∧ (minor = 1 ∨ minor = 2) then readDirectives ts fault true handles
      else .error ⟨.incompatibleVersion, t.start, none⟩
    | .tagDirective handle expansion =>
      if (handles.lookup handle).isSome then .error ⟨.duplicateTagDirective, t.start, none⟩
      else readDirectives ts fault hasVersion (handles ++ [(handle, expansion)])
    | _ => .ok (t :: ts, handles)

/-- A document that is announced, or the end of the source. -/
def explicitDocument (r : Reading) (t : Token) : Step := do
  if t.kind = .streamEnd then return (⟨.streamEnd, t.start⟩, r.skip)
  let (tokens, handles) ← readDirectives r.tokens r.fault false []
  let r := { r with tokens, handles := handles ++ defaultHandles }
  let d ← r.peek
  if d.kind != .documentStart then throw ⟨.missingDocumentStart, d.start, none⟩
  return (⟨.documentStart, t.start⟩, { r.skip.push .documentEnd with next := .documentContent })

/-- The first document may begin without announcement. -/
def firstDocument (r : Reading) : Step := do
  let t ← r.peek
  match t.kind with
  | .versionDirective .. | .tagDirective .. | .documentStart | .streamEnd => r.explicitDocument t
  | _ =>
    return (⟨.documentStart, t.start⟩,
      { r.push .documentEnd with next := .blockNode, handles := defaultHandles })

/-- A later document comes after any number of document ends. -/
def laterDocument (r : Reading) : Step := do
  let r := { r with tokens := r.tokens.dropWhile fun t => t.kind = TokenKind.documentEnd }
  r.explicitDocument (← r.peek)

def documentContent (r : Reading) : Step := do
  let t ← r.peek
  match t.kind with
  | .versionDirective .. | .tagDirective .. | .documentStart | .documentEnd | .streamEnd =>
    return r.pop.emptyScalar t.start
  | _ => r.readNode true false

def documentEnd (r : Reading) : Step := do
  let t ← r.peek
  let r := if t.kind = .documentEnd then r.skip else r
  return (⟨.documentEnd, t.start⟩, { r with next := .document, handles := [] })

def blockEntry (r : Reading) : Step := do
  let t ← r.peek
  match t.kind with
  | .blockEntry =>
    let r := r.skip
    let u ← r.peek
    match u.kind with
    | .blockEntry | .blockEnd => return { r with next := .blockEntry }.emptyScalar t.stop
    | _ => (r.push .blockEntry).readNode true false
  | .blockEnd => return (⟨.sequenceEnd, t.start⟩, r.skip.close)
  | _ => throw ⟨.missingDash, t.start, some (.parseBlockCollection, r.openedAt)⟩

/-- An entry of a block sequence that stands at the column of the mapping around it. -/
def indentlessEntry (r : Reading) : Step := do
  let t ← r.peek
  match t.kind with
  | .blockEntry =>
    let r := r.skip
    let u ← r.peek
    match u.kind with
    | .blockEntry | .key | .value | .blockEnd =>
      return { r with next := .indentlessEntry }.emptyScalar t.stop
    | _ => (r.push .indentlessEntry).readNode true false
  | _ => return (⟨.sequenceEnd, t.start⟩, r.pop)

def blockKey (r : Reading) : Step := do
  let t ← r.peek
  match t.kind with
  | .key =>
    let r := r.skip
    let u ← r.peek
    match u.kind with
    | .key | .value | .blockEnd => return { r with next := .blockValue }.emptyScalar t.stop
    | _ => (r.push .blockValue).readNode true true
  | .blockEnd => return (⟨.mappingEnd, t.start⟩, r.skip.close)
  | _ => throw ⟨.missingKey, t.start, some (.parseBlockMapping, r.openedAt)⟩

def blockValue (r : Reading) : Step := do
  let t ← r.peek
  match t.kind with
  | .value =>
    let r := r.skip
    let u ← r.peek
    match u.kind with
    | .key | .value | .blockEnd => return { r with next := .blockKey }.emptyScalar t.stop
    | _ => (r.push .blockKey).readNode true true
  | _ => return { r with next := .blockKey }.emptyScalar t.start

/-- The part of a flow collection after the comma, if one is due. -/
def afterComma (r : Reading) (first : Bool) (stop : TokenKind) (problem : Problem)
    (activity : Activity) : Except Fault Reading := do
  let t ← r.peek
  if first || t.kind = stop then return r
  else if t.kind = .flowEntry then return r.skip
  else throw ⟨problem, t.start, some (activity, r.openedAt)⟩

/-- An entry of a flow sequence. A key makes it a mapping of one pair. -/
def flowEntry (r : Reading) (first : Bool) : Step := do
  let r ← r.afterComma first .flowSequenceEnd .missingCommaOrBracket .parseFlowSequence
  let t ← r.peek
  match t.kind with
  | .flowSequenceEnd => return (⟨.sequenceEnd, t.start⟩, r.skip.close)
  | .key => return (⟨.mappingStart ⟨none, none⟩, t.start⟩, { r.skip with next := .pairKey })
  | _ => (r.push .flowEntry).readNode false false

/-- The key of a pair. An empty key takes the token after it along. -/
def pairKey (r : Reading) : Step := do
  let t ← r.peek
  match t.kind with
  | .value | .flowEntry | .flowSequenceEnd =>
    return { r.skip with next := .pairValue }.emptyScalar t.stop
  | _ => (r.push .pairValue).readNode false false

def pairValue (r : Reading) : Step := do
  let t ← r.peek
  match t.kind with
  | .value =>
    let r := r.skip
    let u ← r.peek
    match u.kind with
    | .flowEntry | .flowSequenceEnd => return { r with next := .pairEnd }.emptyScalar u.start
    | _ => (r.push .pairEnd).readNode false false
  | _ => return { r with next := .pairEnd }.emptyScalar t.start

def pairEnd (r : Reading) : Step := do
  let t ← r.peek
  return (⟨.mappingEnd, t.start⟩, { r with next := .flowEntry })

/-- A key of a flow mapping. Without the indicator its value may be missing. -/
def flowKey (r : Reading) (first : Bool) : Step := do
  let r ← r.afterComma first .flowMappingEnd .missingCommaOrBrace .parseFlowMapping
  let t ← r.peek
  match t.kind with
  | .flowMappingEnd => return (⟨.mappingEnd, t.start⟩, r.skip.close)
  | .key =>
    let r := r.skip
    let u ← r.peek
    match u.kind with
    | .value | .flowEntry | .flowMappingEnd =>
      return { r with next := .flowValue }.emptyScalar u.start
    | _ => (r.push .flowValue).readNode false false
  | _ => (r.push .flowEmptyValue).readNode false false

def flowValue (r : Reading) : Step := do
  let t ← r.peek
  match t.kind with
  | .value =>
    let r := r.skip
    let u ← r.peek
    match u.kind with
    | .flowEntry | .flowMappingEnd => return { r with next := .flowKey }.emptyScalar u.start
    | _ => (r.push .flowKey).readNode false false
  | _ => return { r with next := .flowKey }.emptyScalar t.start

def step (r : Reading) : Step :=
  match r.next with
  | .streamStart => do
    let _ ← r.peek
    r.skip.firstDocument
  | .firstDocument => r.firstDocument
  | .document => r.laterDocument
  | .documentContent => r.documentContent
  | .documentEnd => r.documentEnd
  | .blockNode => r.readNode true false
  | .firstBlockEntry => do (r.enter (← r.peek).start).blockEntry
  | .blockEntry => r.blockEntry
  | .indentlessEntry => r.indentlessEntry
  | .firstBlockKey => do (r.enter (← r.peek).start).blockKey
  | .blockKey => r.blockKey
  | .blockValue => r.blockValue
  | .firstFlowEntry => do (r.enter (← r.peek).start).flowEntry true
  | .flowEntry => r.flowEntry false
  | .pairKey => r.pairKey
  | .pairValue => r.pairValue
  | .pairEnd => r.pairEnd
  | .firstFlowKey => do (r.enter (← r.peek).start).flowKey true
  | .flowKey => r.flowKey false
  | .flowValue => r.flowValue
  | .flowEmptyValue => do
    let t ← r.peek
    return { r with next := .flowKey }.emptyScalar t.start

/-- The events up to the end or a fault; `out` holds those before, the latest first. -/
def run : Nat → Reading → List Event → List Event × Option Fault
  | 0, _, out => (out.reverse, none)
  | fuel + 1, r, out =>
    match r.step with
    | .error e => (out.reverse, some e)
    | .ok (e, r) => if e.kind = .streamEnd then ((e :: out).reverse, none) else run fuel r (e :: out)

end Reading

/-- The events of a source. Between two tokens at most four events arise. -/
def events (source : List Char) : List Event × Option Fault :=
  let (tokens, fault) := scan source
  Reading.run (4 * tokens.length + 8)
    { tokens, fault, next := .streamStart, after := [], opened := [], handles := [] } []

end ConfigModules.Yaml
