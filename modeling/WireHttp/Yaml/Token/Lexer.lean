/-
From characters to tokens. Two things need memory. The columns of the
open block collections: a token further left closes them. And the place
of the latest scalar or flow collection in each open bracket, because
only a colon after it tells that it was a key; the key token is then put
in front of it.

Anchors, aliases, tags, directives and block scalars are not read.
-/
import WireHttp.Yaml.Scalar
import WireHttp.Yaml.Token

namespace WireHttp.Yaml

/-- Something that is a key if a colon follows it. -/
structure KeyCandidate where
  /-- The number of tokens before it. -/
  position : Nat
  place : Place
  /-- It stands where only a key may stand. -/
  required : Bool
  deriving DecidableEq, Repr

/-- The state of reading. -/
structure Lexer where
  rest : List Char
  place : Place := {}
  tokens : Array Token := #[]
  /-- Columns of the open block collections, innermost first. -/
  indents : List Nat := []
  /-- A key may begin here. -/
  keyAllowed : Bool := true
  /-- The candidate of the text outside all brackets, or of the
  innermost bracket. -/
  candidate : Option KeyCandidate := none
  /-- The candidates further out, innermost first: as many as there are
  open brackets. -/
  outer : List (Option KeyCandidate) := []

namespace Lexer

/-- Whether a bracket is open. -/
def inFlow (l : Lexer) : Bool :=
  !l.outer.isEmpty

/-- The state with one more token. -/
def emit (l : Lexer) (t : Token) : Lexer :=
  { l with tokens := l.tokens.push t }

/-- The state with a token put in after the first `position`. -/
def insert (l : Lexer) (position : Nat) (t : Token) : Lexer :=
  { l with tokens := l.tokens.insertIdxIfInBounds position t }

/-- The state after `n` characters that end no line. -/
def skip (l : Lexer) (n : Nat) : Lexer :=
  { l with rest := l.rest.drop n, place := l.place.skip n }

-- ======================================================= indentation

/-- Whether a column lies right of every open block collection. -/
def indentsTo (l : Lexer) (column : Nat) : Bool :=
  l.indents.head?.all (· < column)

/-- Closes the block collections that lie right of a column. -/
def closeRightOf (l : Lexer) (column : Nat) : Lexer :=
  if l.inFlow then l
  else
    { l with
      indents := l.indents.dropWhile (column < ·)
      tokens := l.tokens ++ (l.indents.takeWhile (column < ·)).map fun _ => Token.blockEnd }

/-- Closes every open block collection. -/
def closeAll (l : Lexer) : Lexer :=
  if l.inFlow then l
  else { l with indents := [], tokens := l.tokens ++ l.indents.map fun _ => Token.blockEnd }

/-- Opens a block collection at a column, unless one is open there; its
start token goes after the first `position` tokens. -/
def openBlock (l : Lexer) (column position : Nat) (start : Token) : Lexer :=
  if !l.inFlow && l.indentsTo column then
    { l with indents := column :: l.indents }.insert position start
  else l

-- ============================================================== keys

/-- Gives up the candidate; one that had to be a key is an error. -/
def dropCandidate (l : Lexer) : Option Lexer :=
  if l.candidate.any (·.required) then none else some { l with candidate := none }

/-- Takes what begins here for a candidate, if a key may begin here. -/
def noteCandidate (l : Lexer) : Option Lexer :=
  if l.keyAllowed then do
    let l ← l.dropCandidate
    let required := !l.inFlow && l.indents.head? == some l.place.column
    return { l with candidate := some ⟨l.tokens.size, l.place, required⟩ }
  else some l

/-- Whether a colon here can belong to a candidate: it does so within
the line, and no more than 1024 characters on. -/
def reaches (l : Lexer) (k : KeyCandidate) : Bool :=
  k.place.line == l.place.line && l.place.index ≤ k.place.index + 1024

-- ============================================================ tokens

/-- The mark before or after a document. -/
def documentMark (l : Lexer) (t : Token) : Option Lexer := do
  let l ← l.closeAll.dropCandidate
  return { (l.skip 3).emit t with keyAllowed := false }

/-- An opening bracket. -/
def flowStart (l : Lexer) (t : Token) : Option Lexer := do
  let l ← l.noteCandidate
  return { (l.skip 1).emit t with
    outer := l.candidate :: l.outer, candidate := none, keyAllowed := true }

/-- A closing bracket. -/
def flowEnd (l : Lexer) (t : Token) : Option Lexer := do
  let l ← l.dropCandidate
  let l := { (l.skip 1).emit t with keyAllowed := false }
  match l.outer with
  | [] => return l
  | candidate :: outer => return { l with candidate, outer }

/-- A comma between brackets, or where there are none. -/
def flowEntry (l : Lexer) : Option Lexer := do
  let l ← l.dropCandidate
  return { (l.skip 1).emit .flowEntry with keyAllowed := true }

/-- A dash before an item. -/
def blockEntry (l : Lexer) : Option Lexer := do
  if !l.inFlow && !l.keyAllowed then none
  let l ← (l.openBlock l.place.column l.tokens.size .blockSequenceStart).dropCandidate
  return { (l.skip 1).emit .blockEntry with keyAllowed := true }

/-- A question mark before a key. -/
def markedKey (l : Lexer) : Option Lexer := do
  if !l.inFlow && !l.keyAllowed then none
  let l ← (l.openBlock l.place.column l.tokens.size .blockMappingStart).dropCandidate
  return { (l.skip 1).emit .key with keyAllowed := !l.inFlow }

/-- A colon before a value. -/
def value (l : Lexer) : Option Lexer :=
  let found := l.candidate.filter l.reaches
  match found with
  | some k =>
    let l := (l.insert k.position .key).openBlock k.place.column k.position .blockMappingStart
    some { (l.skip 1).emit .value with candidate := none, keyAllowed := false }
  | none => do
    let l ← l.dropCandidate
    if !l.inFlow && !l.keyAllowed then none
    let l := l.openBlock l.place.column l.tokens.size .blockMappingStart
    return { (l.skip 1).emit .value with keyAllowed := !l.inFlow }

/-- A scalar of either kind. -/
def scalar (l : Lexer) (plain : Bool) (read : Lexer → Option Scalar) : Option Lexer := do
  let l ← l.noteCandidate
  let s ← read l
  return { l.emit (.scalar (String.ofList s.text) plain) with
    rest := s.rest, place := s.place, keyAllowed := s.endedLine }

/-- A scalar between two of a mark. -/
def quotedScalar (l : Lexer) (quote : Char) : Option Lexer :=
  l.scalar false fun l => readQuoted quote (l.place.skip 1) (l.rest.drop 1)

/-- A plain scalar. -/
def plainScalar (l : Lexer) : Option Lexer :=
  l.scalar true fun l => readPlain l.inFlow (l.indents.head?.elim 0 (· + 1)) l.place l.rest

/-- Characters that begin no plain scalar. -/
def isIndicator (c : Char) : Bool :=
  ['-', '?', ':', ',', '[', ']', '{', '}', '#', '&', '*', '!', '|', '>', '\'', '"', '%', '@',
    '\x60'].contains c

/-- Whether a plain scalar begins with `c`, which `rest` follows. -/
def beginsPlain (l : Lexer) (c : Char) (rest : List Char) : Bool :=
  !(endsWord [c] || isIndicator c)
    || (c == '-' && !rest.head?.any isBlank)
    || (!l.inFlow && (c == '?' || c == ':') && !endsWord rest)

/-- Reads the token that begins with `c`, which `rest` follows. -/
def token (l : Lexer) (c : Char) (rest : List Char) : Option Lexer :=
  let atMargin := l.place.column == 0
  if atMargin && c == '%' then none
  else if atMargin && startsDocument (c :: rest) then
    l.documentMark (if c == '-' then .documentStart else .documentEnd)
  else if c == '[' then l.flowStart .flowSequenceStart
  else if c == '{' then l.flowStart .flowMappingStart
  else if c == ']' then l.flowEnd .flowSequenceEnd
  else if c == '}' then l.flowEnd .flowMappingEnd
  else if c == ',' then l.flowEntry
  else if c == '-' && endsWord rest then l.blockEntry
  else if c == '?' && (l.inFlow || endsWord rest) then l.markedKey
  else if c == ':' && (l.inFlow || endsWord rest) then l.value
  else if c == '\'' || c == '"' then l.quotedScalar c
  else if l.beginsPlain c rest then l.plainScalar
  else none

-- ======================================================= whole text

/-- Skips a comment that begins here. -/
def skipComment (l : Lexer) : Lexer :=
  if l.rest.head? == some '#' then l.skip (l.rest.takeWhile (!isBreak ·)).length else l

theorem length_skip_le (l : Lexer) (n : Nat) : (l.skip n).rest.length ≤ l.rest.length := by
  simp [skip]

theorem length_skipComment_le (l : Lexer) : l.skipComment.rest.length ≤ l.rest.length := by
  unfold skipComment
  split
  · exact length_skip_le l _
  · exact Nat.le_refl _

/-- Skips a byte order mark at the beginning of a line. It takes up a
column like any other character. -/
def skipOrderMark (l : Lexer) : Lexer :=
  if l.place.column == 0 && l.rest.head? == some '\ufeff' then l.skip 1 else l

theorem length_skipOrderMark_le (l : Lexer) : l.skipOrderMark.rest.length ≤ l.rest.length := by
  unfold skipOrderMark
  split
  · exact length_skip_le l _
  · exact Nat.le_refl _

/-- Reads blanks, comments and line ends. A tab is no indentation: it
may stand only where no block key can begin. -/
def skipBlanks (l : Lexer) : Lexer :=
  let line := l.skipOrderMark
  let blanks := line.rest.takeWhile fun c =>
    c == ' ' || (c == '\t' && (l.inFlow || !l.keyAllowed))
  let next := (line.skip blanks.length).skipComment
  match h : lineEnd? next.rest with
  | none => next
  | some (_, n) =>
    have : (next.rest.drop n).length < l.rest.length :=
      Nat.lt_of_lt_of_le (length_drop_lineEnd_lt h)
        (Nat.le_trans (length_skipComment_le _)
          (Nat.le_trans (length_skip_le _ _) (length_skipOrderMark_le l)))
    { next with
      rest := next.rest.drop n
      place := next.place.newLine n
      keyAllowed := next.keyAllowed || !next.inFlow }.skipBlanks
termination_by l.rest.length
decreasing_by exact this

/-- How many collections may be open at once. -/
def maxDepth : Nat := 128

/-- Reads tokens to the end of the text, `steps` of them at most. -/
def run (l : Lexer) : Nat → Option (List Token)
  | 0 => none
  | steps + 1 =>
    let l := l.skipBlanks
    match l.rest with
    | [] => do return (← l.closeAll.dropCandidate).tokens.toList
    | c :: rest => do
      let l ← (l.closeRightOf l.place.column).token c rest
      if maxDepth < l.indents.length + l.outer.length then none else l.run steps

end Lexer

/-- The tokens of a text. -/
def tokens? (text : String) : Option (List Token) :=
  let cs := text.toList
  if cs.all isAllowed then Lexer.run { rest := cs } (cs.length + 1) else none

end WireHttp.Yaml
