/-!
# Styles of scalars

The five ways in which YAML writes a text. Only a plain scalar is read for a type; all others are
texts.
-/

namespace LibraryModels.Yaml

/-- How a scalar is written. -/
inductive Style where
  | plain
  | singleQuoted
  | doubleQuoted
  | literal
  | folded
deriving DecidableEq, Repr

end LibraryModels.Yaml
