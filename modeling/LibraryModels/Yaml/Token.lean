import LibraryModels.Yaml.Style

/-!
# YAML tokens

The tokens of a YAML text. Indentation appears as tokens that open and close block collections. A
scalar token has the text that it stands for and the style in which it was written.
-/

namespace LibraryModels.Yaml

/-- A token of a YAML text. -/
inductive Token where
  | versionDirective (major minor : Nat)
  | tagDirective (handle lead : String)
  | documentStart
  | documentEnd
  | blockSequenceStart
  | blockMappingStart
  | blockEnd
  | flowSequenceStart
  | flowSequenceEnd
  | flowMappingStart
  | flowMappingEnd
  | blockEntry
  | flowEntry
  | key
  | value
  | alias (name : String)
  | anchor (name : String)
  /-- A tag: a suffix below a handle, or by itself if the handle is empty. -/
  | tag (handle suffix : String)
  | scalar (text : String) (style : Style)
deriving DecidableEq, Repr

end LibraryModels.Yaml
