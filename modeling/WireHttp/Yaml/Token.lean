/-
The tokens of a YAML text. Indentation is told by tokens as well, so
what follows need not know of columns: a block collection is what stands
between its start and its end token.
-/

namespace WireHttp.Yaml

/-- A token. -/
inductive Token
  /-- The mark before a document. -/
  | documentStart
  /-- The mark after a document. -/
  | documentEnd
  | blockSequenceStart
  | blockMappingStart
  | blockEnd
  /-- The dash before an item of a block sequence. -/
  | blockEntry
  | flowSequenceStart
  | flowSequenceEnd
  | flowMappingStart
  | flowMappingEnd
  /-- The comma between the items of a flow collection. -/
  | flowEntry
  /-- What follows is a key, whether or not it is marked as one. -/
  | key
  /-- What follows is a value. -/
  | value
  | scalar (text : String) (plain : Bool)
  deriving DecidableEq, Repr

end WireHttp.Yaml
