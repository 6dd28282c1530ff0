/-!
Faults of a YAML text. A fault names what was found wrong and, for most, during which activity;
`Fault.message` puts them into words with one-based lines and columns.
-/
namespace ConfigModules.Yaml

/-- A place in the source: bytes before it, line breaks before it, characters before it on its line. -/
structure Mark where
  index : Nat
  line : Nat
  column : Nat
deriving DecidableEq, Repr

instance : Inhabited Mark := ⟨⟨0, 0, 0⟩⟩

namespace Mark

/-- The first place of a text. -/
def start : Mark := ⟨0, 0, 0⟩

/-- Whether the mark stands after the first place of the first line. -/
def isInside (m : Mark) : Bool := m.line != 0 || m.column != 0

def sameSpot (m n : Mark) : Bool := m.line == n.line && m.column == n.column

def text (m : Mark) : String := s!"line {m.line + 1} column {m.column + 1}"

end Mark

inductive Problem where
  | controlCharacter (offset : Nat)
  | missingColon
  | sequenceEntryNotAllowed
  | mappingKeyNotAllowed
  | mappingValueNotAllowed
  | noTokenStart
  | unknownDirective
  | missingDirectiveName
  | directiveNameCharacter
  | missingCommentOrBreak
  | missingVersionNumber
  | longVersionNumber
  | missingVersionDot
  | missingBang
  | missingTagClose
  | missingSpace
  | missingSpaceOrBreak
  | missingTagUri
  | badUriEscape
  | badLeadingOctet
  | badTrailingOctet
  | missingName
  | zeroIndentation
  | tabInIndentation
  | documentIndicatorInQuotes
  | endInQuotes
  | unknownEscape
  | missingHexDigit
  | badEscapedCode
  | unexpectedColon
  | tabViolatesIndentation
  | missingDocumentStart
  | duplicateVersionDirective
  | incompatibleVersion
  | duplicateTagDirective
  | undefinedTagHandle
  | missingNodeContent
  | missingDash
  | missingKey
  | missingCommaOrBracket
  | missingCommaOrBrace
  | unknownAnchor
deriving DecidableEq, Repr

def Problem.text : Problem → String
  | .controlCharacter _ => "control characters are not allowed"
  | .missingColon => "could not find expected ':'"
  | .sequenceEntryNotAllowed => "block sequence entries are not allowed in this context"
  | .mappingKeyNotAllowed => "mapping keys are not allowed in this context"
  | .mappingValueNotAllowed => "mapping values are not allowed in this context"
  | .noTokenStart => "found character that cannot start any token"
  | .unknownDirective => "found unknown directive name"
  | .missingDirectiveName => "could not find expected directive name"
  | .directiveNameCharacter => "found unexpected non-alphabetical character"
  | .missingCommentOrBreak => "did not find expected comment or line break"
  | .missingVersionNumber => "did not find expected version number"
  | .longVersionNumber => "found extremely long version number"
  | .missingVersionDot => "did not find expected digit or '.' character"
  | .missingBang => "did not find expected '!'"
  | .missingTagClose => "did not find the expected '>'"
  | .missingSpace => "did not find expected whitespace"
  | .missingSpaceOrBreak => "did not find expected whitespace or line break"
  | .missingTagUri => "did not find expected tag URI"
  | .badUriEscape => "did not find URI escaped octet"
  | .badLeadingOctet => "found an incorrect leading UTF-8 octet"
  | .badTrailingOctet => "found an incorrect trailing UTF-8 octet"
  | .missingName => "did not find expected alphabetic or numeric character"
  | .zeroIndentation => "found an indentation indicator equal to 0"
  | .tabInIndentation => "found a tab character where an indentation space is expected"
  | .documentIndicatorInQuotes => "found unexpected document indicator"
  | .endInQuotes => "found unexpected end of stream"
  | .unknownEscape => "found unknown escape character"
  | .missingHexDigit => "did not find expected hexadecimal number"
  | .badEscapedCode => "found invalid Unicode character escape code"
  | .unexpectedColon => "found unexpected ':'"
  | .tabViolatesIndentation => "found a tab character that violates indentation"
  | .missingDocumentStart => "did not find expected <document start>"
  | .duplicateVersionDirective => "found duplicate %YAML directive"
  | .incompatibleVersion => "found incompatible YAML document"
  | .duplicateTagDirective => "found duplicate %TAG directive"
  | .undefinedTagHandle => "found undefined tag handle"
  | .missingNodeContent => "did not find expected node content"
  | .missingDash => "did not find expected '-' indicator"
  | .missingKey => "did not find expected key"
  | .missingCommaOrBracket => "did not find expected ',' or ']'"
  | .missingCommaOrBrace => "did not find expected ',' or '\x7d'"
  | .unknownAnchor => "unknown anchor"

/-- What was being read when the fault was found. -/
inductive Activity where
  | scanSimpleKey
  | scanNextToken
  | scanDirective
  | scanVersionDirective
  | scanTagHandleDirective
  | parseTagHandleDirective
  | scanTagDirective
  | parseTagDirective
  | scanTag
  | parseTag
  | scanAnchor
  | scanAlias
  | scanBlockScalar
  | scanQuotedScalar
  | parseQuotedScalar
  | scanPlainScalar
  | parseNode
  | parseBlockNode
  | parseFlowNode
  | parseBlockCollection
  | parseBlockMapping
  | parseFlowSequence
  | parseFlowMapping
deriving DecidableEq, Repr

def Activity.text : Activity → String
  | .scanSimpleKey => "while scanning a simple key"
  | .scanNextToken => "while scanning for the next token"
  | .scanDirective => "while scanning a directive"
  | .scanVersionDirective => "while scanning a %YAML directive"
  | .scanTagHandleDirective => "while scanning a tag directive"
  | .parseTagHandleDirective => "while parsing a tag directive"
  | .scanTagDirective => "while scanning a %TAG directive"
  | .parseTagDirective => "while parsing a %TAG directive"
  | .scanTag => "while scanning a tag"
  | .parseTag => "while parsing a tag"
  | .scanAnchor => "while scanning an anchor"
  | .scanAlias => "while scanning an alias"
  | .scanBlockScalar => "while scanning a block scalar"
  | .scanQuotedScalar => "while scanning a quoted scalar"
  | .parseQuotedScalar => "while parsing a quoted scalar"
  | .scanPlainScalar => "while scanning a plain scalar"
  | .parseNode => "while parsing a node"
  | .parseBlockNode => "while parsing a block node"
  | .parseFlowNode => "while parsing a flow node"
  | .parseBlockCollection => "while parsing a block collection"
  | .parseBlockMapping => "while parsing a block mapping"
  | .parseFlowSequence => "while parsing a flow sequence"
  | .parseFlowMapping => "while parsing a flow mapping"

/-- A fault with its place, and the activity with the place where that began. -/
structure Fault where
  problem : Problem
  mark : Mark
  during : Option (Activity × Mark)
deriving DecidableEq, Repr

/-- The place of a fault, left out at the very start of the text. A forbidden character has only
an offset. -/
def Fault.place (f : Fault) : String :=
  if f.mark.isInside then " at " ++ f.mark.text
  else match f.problem with
    | .controlCharacter (n + 1) => s!" at position {n + 1}"
    | _ => ""

/-- The problem, its place, and the activity with its place where that is another one. -/
def Fault.message (f : Fault) : String :=
  f.problem.text ++ f.place ++
    match f.during with
    | none => ""
    | some (activity, began) =>
      ", " ++ activity.text ++
        if began.isInside && !began.sameSpot f.mark then " at " ++ began.text else ""

end ConfigModules.Yaml
