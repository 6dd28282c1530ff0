import ConfigModules.Yaml.LoadFault
/-!
Documents and their trees. A document is the list of its nodes' events with anchors numbered; its
tree is read from that list, going back to the anchored place at an alias. Nesting is limited, and so
is the number of aliases followed.
-/
namespace ConfigModules.Yaml

inductive ItemKind where
  | aliasTo (number : Nat)
  | scalar (tag : Option TagBytes) (text : String) (style : ScalarStyle)
  | sequenceStart (tag : Option TagBytes)
  | sequenceEnd
  | mappingStart (tag : Option TagBytes)
  | mappingEnd
  /-- The content of a source without any document. -/
  | nothing
deriving DecidableEq, Repr

structure Item where
  kind : ItemKind
  mark : Mark
deriving DecidableEq, Repr

structure Document where
  items : List Item
  /-- The position of the item that each anchor number names, the latest first. -/
  anchors : List (Nat × Nat)
  /-- The fault after the items. -/
  fault : Option Fault
deriving Repr

namespace Document

structure Draft where
  /-- The items, the latest first. -/
  items : List Item
  size : Nat
  /-- The names in use with their numbers. A name that comes again is renumbered by the count of
  names, so that it may share its number. -/
  names : List (String × Nat)
  anchors : List (Nat × Nat)

namespace Draft

def empty : Draft := ⟨[], 0, [], []⟩

def add (d : Draft) (kind : ItemKind) (mark : Mark) : Draft :=
  { d with items := ⟨kind, mark⟩ :: d.items, size := d.size + 1 }

/-- Numbers an anchor and notes the place of the next item under the number. -/
def anchor (d : Draft) : Option String → Draft
  | none => d
  | some name =>
    let number := d.names.length
    { d with
      names := (name, number) :: d.names.filter (·.1 != name)
      anchors := (number, d.size) :: d.anchors }

def finish (d : Draft) (fault : Option Fault) : Document := ⟨d.items.reverse, d.anchors, fault⟩

end Draft

/-- The documents of a list of events. A fault ends the last of them. Without any document there is
one that holds nothing; `out` has the documents before, the latest first. -/
def collect : List Event → Option Fault → Draft → List Document → List Document
  | [], fault, d, out => ((d.finish fault) :: out).reverse
  | ⟨kind, m⟩ :: es, fault, d, out =>
    match kind with
    | .documentStart => collect es fault d out
    | .documentEnd => collect es fault .empty (d.finish none :: out)
    | .streamEnd => if out.isEmpty then [(d.add .nothing m).finish none] else out.reverse
    | .aliasTo name =>
      match d.names.lookup name with
      | some number => collect es fault (d.add (.aliasTo number) m) out
      | none => ((d.finish (some ⟨.unknownAnchor, m, none⟩)) :: out).reverse
    | .scalar p text style => collect es fault ((d.anchor p.anchor).add (.scalar p.tag text style) m) out
    | .sequenceStart p => collect es fault ((d.anchor p.anchor).add (.sequenceStart p.tag) m) out
    | .sequenceEnd => collect es fault (d.add .sequenceEnd m) out
    | .mappingStart p => collect es fault ((d.anchor p.anchor).add (.mappingStart p.tag) m) out
    | .mappingEnd => collect es fault (d.add .mappingEnd m) out

def ofSource (source : List Char) : List Document :=
  let (es, fault) := events source
  collect es fault .empty []

def depthLimit : Nat := 128

/-- The name of a local tag: what follows its bang. Tags that are no text have none. -/
def localTag? (tag : Option TagBytes) : Option String :=
  tag.bind fun bytes =>
    if bytes.head? = some (UInt8.ofNat '!'.toNat) then
      (String.fromUTF8? ⟨bytes.toArray⟩).map fun s =>
        if bytes.length = 1 then s else String.ofList s.toList.tail
    else none

/-- Where a node is read: its path, last step first, how many collections may be opened, and whether
its tag has been taken already. -/
structure Place where
  path : List PathStep
  depth : Nat
  tagged : Bool

def Place.inner (p : Place) (step : PathStep) : Place := ⟨step :: p.path, p.depth, false⟩

/-- What is left to read and how many aliases were followed. -/
structure Walk where
  rest : List Item
  aliases : Nat

/-- The fault of reading past the items. -/
def ended (d : Document) : LoadFault :=
  match d.fault with
  | some fault => .source fault
  | none => .unfinished

/-- The step to the value under a key. -/
def keyStep (w : Walk) : PathStep :=
  match w.rest with
  | ⟨.scalar _ text _, _⟩ :: _ => .key text
  | _ => .unnamed

/-- The tag that makes the next item a tagged node, if it has not been taken. -/
def nextTag? (p : Place) (w : Walk) : Option String :=
  if p.tagged then none
  else match w.rest with
    | ⟨.scalar tag _ _, _⟩ :: _ => localTag? tag
    | ⟨.sequenceStart tag, _⟩ :: _ => localTag? tag
    | ⟨.mappingStart tag, _⟩ :: _ => localTag? tag
    | _ => none

mutual

def readNode (d : Document) : Nat → Place → Walk → Except LoadFault (Tree × Walk)
  | 0, _, _ => .error .unfinished
  | fuel + 1, p, w =>
    match nextTag? p w with
    | some tag =>
      match readNode d fuel { p with tagged := true } w with
      | .error e => .error e
      | .ok (t, w) => .ok (.tagged tag t, w)
    | none =>
      match w.rest with
      | [] => .error d.ended
      | ⟨kind, m⟩ :: rest =>
        match kind with
        | .aliasTo number =>
          if w.aliases + 1 > d.items.length * 100 then .error .tooManyAliases
          else
            let start := (d.anchors.lookup number).getD d.items.length
            match readNode d fuel { p with tagged := false }
                ⟨d.items.drop start, w.aliases + 1⟩ with
            | .error e => .error e
            | .ok (t, v) => .ok (t, ⟨rest, v.aliases⟩)
        | .scalar tag text style =>
          match Resolution.scalar (if p.tagged then none else tag) text style with
          | .error e => .error (.node p.path m (.scalar e))
          | .ok t => .ok (t, { w with rest })
        | .sequenceStart _ =>
          if p.depth = 0 then .error (.tooDeep m)
          else readItems d fuel { p with depth := p.depth - 1 } 0 [] { w with rest }
        | .mappingStart _ =>
          if p.depth = 0 then .error (.tooDeep m)
          else readEntries d fuel { p with depth := p.depth - 1 } m [] { w with rest }
        | .nothing => .ok (.null, { w with rest })
        | .sequenceEnd | .mappingEnd => .error .unfinished

/-- Reads the elements of a sequence; `items` are those before, the latest first. -/
def readItems (d : Document) :
    Nat → Place → (index : Nat) → (items : List Tree) → Walk → Except LoadFault (Tree × Walk)
  | 0, _, _, _, _ => .error .unfinished
  | fuel + 1, p, index, items, w =>
    match w.rest with
    | [] => .error d.ended
    | ⟨.sequenceEnd, _⟩ :: rest => .ok (.sequence items.reverse, { w with rest })
    | _ =>
      match readNode d fuel (p.inner (.index index)) w with
      | .error e => .error e
      | .ok (t, w) => readItems d fuel p (index + 1) (t :: items) w

/-- Reads the entries of a mapping that starts at `m`; `entries` are those before, the latest
first. A key that comes again is found before its value is read. The tag of a mapping hides the tags
of its keys. -/
def readEntries (d : Document) :
    Nat → Place → (m : Mark) → (entries : List (Tree × Tree)) → Walk →
      Except LoadFault (Tree × Walk)
  | 0, _, _, _, _ => .error .unfinished
  | fuel + 1, p, m, entries, w =>
    match w.rest with
    | [] => .error d.ended
    | ⟨.mappingEnd, _⟩ :: rest => .ok (.mapping entries.reverse, { w with rest })
    | _ =>
      let step := keyStep w
      match readNode d fuel p w with
      | .error e => .error e
      | .ok (k, w) =>
        if Tree.hasKey k entries then .error (.node p.path m (.duplicateEntry k))
        else match readNode d fuel (p.inner step) w with
          | .error e => .error e
          | .ok (v, w) => readEntries d fuel p m ((k, v) :: entries) w

end

/-- The tree of a document. The fuel covers every nesting with every position in it. -/
def tree (d : Document) : Except LoadFault Tree :=
  match d.readNode (200 * (d.items.length + 10)) ⟨[], depthLimit, false⟩ ⟨d.items, 0⟩ with
  | .error e => .error e
  | .ok (t, _) =>
    match d.fault with
    | some fault => .error (.source fault)
    | none => .ok t

end Document

end ConfigModules.Yaml
