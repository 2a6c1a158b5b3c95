/-
The tree that a YAML text describes, and how it is read from tokens.
Where a value is left out, an empty plain scalar stands for it. A text
holds one document at most, and a document that is only marked holds
such a scalar.
-/
import WireHttp.Yaml.Token

namespace WireHttp.Yaml

/-- A node of a document. -/
inductive Node
  | scalar (text : String) (plain : Bool)
  | sequence (items : List Node)
  | mapping (entries : List (Node × Node))
  deriving Repr

namespace Node

/-- What stands for a value that is left out. -/
def empty : Node := .scalar "" true

/-- What has been read, and the tokens after it. -/
abbrev Parsed (α : Type) := Option (α × List Token)

/-- An item of a bracket: a node, and its value if it is a pair. -/
abbrev Item := Node × Option Node

/-- The node that an item of a sequence is; a pair is a mapping. -/
def Item.node : Item → Node
  | (node, none) => node
  | (key, some value) => .mapping [(key, value)]

/-- The entry that an item of a mapping is. -/
def Item.entry : Item → Node × Node
  | (key, value) => (key, value.getD empty)

/-- The tokens after the comma before an item that is not the first. -/
def afterComma (first : Bool) (ts : List Token) : Option (List Token) :=
  match first, ts with
  | true, ts => some ts
  | false, .flowEntry :: ts => some ts
  | false, _ => none

-- Every reader below takes the most steps it may make as its last
-- argument; each step reads a token or goes one level deeper.
mutual

/-- Reads a node. A block collection may begin here only if `block`, and
the dash of a sequence that is not indented only if `dash`. -/
def read (block dash : Bool) (ts : List Token) : Nat → Parsed Node
  | 0 => none
  | steps + 1 =>
    match ts with
    | .scalar text plain :: ts => some (.scalar text plain, ts)
    | .flowSequenceStart :: ts =>
      (readItems .flowSequenceEnd true ts steps).map fun (items, ts) =>
        (.sequence (items.map Item.node), ts)
    | .flowMappingStart :: ts =>
      (readItems .flowMappingEnd true ts steps).map fun (items, ts) =>
        (.mapping (items.map Item.entry), ts)
    | .blockSequenceStart :: ts =>
      if block then (readIndented ts steps).map fun (items, ts) => (.sequence items, ts)
      else none
    | .blockMappingStart :: ts =>
      if block then (readEntries ts steps).map fun (entries, ts) => (.mapping entries, ts)
      else none
    | .blockEntry :: _ =>
      if dash then (readDashed ts steps).map fun (items, ts) => (.sequence items, ts) else none
    | _ => none

/-- Reads a node that is left out if one of `stops` comes next. -/
def readUnless (stops : List Token) (block dash : Bool) (ts : List Token) : Nat → Parsed Node
  | 0 => none
  | steps + 1 =>
    if ts.head?.any stops.contains then some (empty, ts) else read block dash ts steps

/-- Reads the items of a block sequence, and its end. -/
def readIndented (ts : List Token) : Nat → Parsed (List Node)
  | 0 => none
  | steps + 1 =>
    match ts with
    | .blockEntry :: ts =>
      (readUnless [.blockEntry, .blockEnd] true false ts steps).bind fun (item, ts) =>
        (readIndented ts steps).map fun (items, ts) => (item :: items, ts)
    | .blockEnd :: ts => some ([], ts)
    | _ => none

/-- Reads the items of a sequence that is not indented, as far as there
are dashes. -/
def readDashed (ts : List Token) : Nat → Parsed (List Node)
  | 0 => none
  | steps + 1 =>
    match ts with
    | .blockEntry :: ts =>
      (readUnless [.blockEntry, .key, .value, .blockEnd] true false ts steps).bind
        fun (item, ts) => (readDashed ts steps).map fun (items, ts) => (item :: items, ts)
    | _ => some ([], ts)

/-- Reads the entries of a block mapping, and its end. -/
def readEntries (ts : List Token) : Nat → Parsed (List (Node × Node))
  | 0 => none
  | steps + 1 =>
    match ts with
    | .key :: ts =>
      (readUnless [.key, .value, .blockEnd] true true ts steps).bind fun (key, ts) =>
        (readValue [.key, .value, .blockEnd] true ts steps).bind fun (value, ts) =>
          (readEntries ts steps).map fun (entries, ts) => ((key, value) :: entries, ts)
    | .blockEnd :: ts => some ([], ts)
    | _ => none

/-- Reads what follows a key. -/
def readValue (stops : List Token) (block : Bool) (ts : List Token) : Nat → Parsed Node
  | 0 => none
  | steps + 1 =>
    match ts with
    | .value :: ts => readUnless stops block block ts steps
    | _ => some (empty, ts)

/-- Reads the items of a bracket, and its end, which is the token
`close`. Between two items stands a comma, and one may follow the last. -/
def readItems (close : Token) (first : Bool) (ts : List Token) : Nat → Parsed (List Item)
  | 0 => none
  | steps + 1 =>
    if ts.head? = some close then some ([], ts.tail)
    else
      (afterComma first ts).bind fun ts =>
        if ts.head? = some close then some ([], ts.tail)
        else
          (readItem close ts steps).bind fun (item, ts) =>
            (readItems close false ts steps).map fun (items, ts) => (item :: items, ts)

/-- Reads one item of a bracket. -/
def readItem (close : Token) (ts : List Token) : Nat → Parsed Item
  | 0 => none
  | steps + 1 =>
    match ts with
    | .key :: ts =>
      (readUnless [.value, .flowEntry, close] false false ts steps).bind fun (key, ts) =>
        (readValue [.flowEntry, close] false ts steps).map fun (value, ts) =>
          ((key, some value), ts)
    | ts => (read false false ts steps).map fun (node, ts) => ((node, none), ts)

end

/-- The document of a text, if it has one. After it may stand marks that
it is over, and nothing else. -/
def ofTokens? (ts : List Token) : Option (Option Node) :=
  let steps := 4 * ts.length + 4
  let document : Parsed (Option Node) :=
    match ts with
    | [] => some (none, [])
    | .documentStart :: [] => some (some empty, [])
    | .documentStart :: ts =>
      (readUnless [.documentStart, .documentEnd] true false ts steps).map fun (node, ts) =>
        (some node, ts)
    | ts => (read true false ts steps).map fun (node, ts) => (some node, ts)
  document.bind fun (node, rest) =>
    if rest.all (· == .documentEnd) then some node else none

end Node

end WireHttp.Yaml
