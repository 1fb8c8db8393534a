import Provisioner.Yaml.Fault

/-!
# YAML tokens

The words of a YAML text: indicators, properties of nodes, scalars, directives, and
the beginnings and ends of blocks that only indentation shows.
-/

namespace Provisioner.Yaml

/-- How a scalar is written. -/
inductive Style
  | plain
  | singleQuoted
  | doubleQuoted
  | literal
  | folded
deriving DecidableEq, Repr

/-- What a token is. -/
inductive Token.Kind
  | versionDirective (major minor : Nat)
  | tagDirective (handle leader : String)
  | documentStart
  | documentEnd
  | blockSequenceStart
  | blockMappingStart
  | blockEnd
  | flowSequenceStart
  | flowSequenceEnd
  | flowMappingStart
  | flowMappingEnd
  | blockEntry
  | flowEntry
  | key
  | value
  | alias (name : String)
  | anchor (name : String)
  | tag (handle suffix : String)
  | scalar (text : String) (style : Style)
  | streamEnd
deriving DecidableEq, Repr

/-- A token between two places. -/
structure Token where
  kind : Token.Kind
  start : Mark
  stop : Mark
deriving DecidableEq, Repr

end Provisioner.Yaml
