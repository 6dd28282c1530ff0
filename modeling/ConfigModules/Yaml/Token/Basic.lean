import ConfigModules.Yaml.Fault
/-! The tokens of a YAML text. Block collections show their extent by tokens of their own. -/
namespace ConfigModules.Yaml

inductive ScalarStyle where
  | plain
  | singleQuoted
  | doubleQuoted
  | literal
  | folded
deriving DecidableEq, Repr

/-- The text of a tag, as bytes: escapes may spell what is no text. -/
abbrev TagBytes := List UInt8

inductive TokenKind where
  | streamStart
  | streamEnd
  | versionDirective (major minor : Nat)
  | tagDirective (handle : String) (expansion : TagBytes)
  | documentStart
  | documentEnd
  | blockSequenceStart
  | blockMappingStart
  | blockEnd
  | flowSequenceStart
  | flowSequenceEnd
  | flowMappingStart
  | flowMappingEnd
  | blockEntry
  | flowEntry
  | key
  | value
  | aliasTo (name : String)
  | anchor (name : String)
  | tag (handle : String) (suffix : TagBytes)
  | scalar (text : String) (style : ScalarStyle)
deriving DecidableEq, Repr

/-- A token with the places where it starts and where the next character stands. -/
structure Token where
  kind : TokenKind
  start : Mark
  stop : Mark
deriving DecidableEq, Repr

end ConfigModules.Yaml
