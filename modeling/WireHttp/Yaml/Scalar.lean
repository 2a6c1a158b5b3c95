/-
Scalars as they are written: plain, in apostrophes or in quotation
marks. Blanks and line ends within a scalar are folded. Each reader
gives the text, what follows it and where that is.
-/
import WireHttp.Text.Radix
import WireHttp.Yaml.Basic

namespace WireHttp.Yaml

/-- A scalar that has been read. -/
structure Scalar where
  text : List Char
  rest : List Char
  place : Place
  /-- The scalar was followed by a line end that has been read too. -/
  endedLine : Bool := false
  deriving DecidableEq, Repr

-- ============================================================ plain

/-- A character that ends a plain scalar inside brackets. -/
def isFlowMark (c : Char) : Bool :=
  [',', '[', ']', '{', '}'].contains c

/-- Whether a plain scalar ends before a character: at a colon that ends
a word, and inside brackets at a mark. -/
def endsPlain (inFlow : Bool) (c : Char) (rest : List Char) : Bool :=
  (c == ':' && endsWord rest) || (inFlow && isFlowMark c)

/-- Whether a plain scalar ends at the end of a gap: in a column left of
`margin`, at a mark between documents or at a comment. -/
def endsAfterGap (inFlow : Bool) (margin : Nat) (place : Place) (cs : List Char) : Bool :=
  (!inFlow && place.column < margin) || (place.column == 0 && startsDocument cs)
    || cs.head? == some '#'

/-- Reads on in a plain scalar of which `text`, last character first, and
then `gap` have been read. -/
def plainFrom (inFlow : Bool) (margin : Nat) (place : Place) (text : List Char) (gap : Gap)
    (cs : List Char) : Option Scalar :=
  match cs with
  | [] => some ⟨text.reverse, [], place, gap.isBroken⟩
  | c :: rest =>
    match lineEnd? (c :: rest) with
    | some (d, n) =>
      plainFrom inFlow margin (place.newLine n) text (gap.addBreak d) (rest.drop (n - 1))
    | none =>
      if isBlank c then
        if c == '\t' && gap.isBroken && place.column < margin then none
        else plainFrom inFlow margin (place.skip 1) text (gap.addBlank c) rest
      else if gap != .none && endsAfterGap inFlow margin place (c :: rest) then
        some ⟨text.reverse, c :: rest, place, gap.isBroken⟩
      else if inFlow && c == ':' && rest.head?.any (fun d => d == '?' || isFlowMark d) then none
      else if endsPlain inFlow c rest then some ⟨text.reverse, c :: rest, place, gap.isBroken⟩
      else plainFrom inFlow margin (place.skip 1) (c :: gap.folded ++ text) .none rest
termination_by cs.length
decreasing_by all_goals simp only [List.length_cons, List.length_drop]; omega

/-- Reads a plain scalar. -/
def readPlain (inFlow : Bool) (margin : Nat) (place : Place) (cs : List Char) : Option Scalar :=
  plainFrom inFlow margin place [] .none cs

-- =========================================================== quoted

/-- The character with a given number; surrogates have none. -/
def charOfNumber? (n : Nat) : Option Char :=
  if n.isValidChar then some (Char.ofNat n) else none

/-- The escapes that stand for one character each. -/
def simpleEscapes : List (Char × Char) :=
  [('0', '\x00'), ('a', '\x07'), ('b', '\x08'), ('t', '\t'), ('\t', '\t'), ('n', '\n'),
    ('v', '\x0b'), ('f', '\x0c'), ('r', '\r'), ('e', '\x1b'), (' ', ' '), ('"', '"'), ('/', '/'),
    ('\\', '\\'), ('N', '\u0085'), ('_', '\u00a0'), ('L', '\u2028'), ('P', '\u2029')]

/-- How many hexadecimal digits follow the letter of an escape. -/
def escapeDigits? : Char → Option Nat
  | 'x' => some 2
  | 'u' => some 4
  | 'U' => some 8
  | _ => none

/-- The character that an escape stands for, and how many characters
follow the letter of the escape. -/
def readEscape? (letter : Char) (rest : List Char) : Option (Char × Nat) :=
  match simpleEscapes.lookup letter with
  | some c => some (c, 0)
  | none =>
    (escapeDigits? letter).bind fun count =>
      let digits := rest.take count
      if digits.length < count then none
      else ((Text.Radix.readBelow? 16 UInt32.size digits).bind charOfNumber?).map (·, count)

/-- Reads on in a scalar between two of the mark `quote`, of which
`text`, last character first, and then `gap` have been read. Within
apostrophes two of them stand for one; within quotation marks a
backslash begins an escape, and before a line end it takes that away. -/
def quotedFrom (quote : Char) (place : Place) (text : List Char) (gap : Gap)
    (cs : List Char) : Option Scalar :=
  match cs with
  | [] => none
  | c :: rest =>
    match lineEnd? (c :: rest) with
    | some (d, n) => quotedFrom quote (place.newLine n) text (gap.addBreak d) (rest.drop (n - 1))
    | none =>
      if isBlank c then quotedFrom quote (place.skip 1) text (gap.addBlank c) rest
      else if gap.isBroken && place.column == 0 && startsDocument (c :: rest) then none
      else if c == quote then
        if quote == '\'' && rest.head? == some '\'' then
          quotedFrom quote (place.skip 2) ('\'' :: gap.folded ++ text) .none (rest.drop 1)
        else some ⟨(gap.folded ++ text).reverse, rest, place.skip 1, false⟩
      else if quote == '"' && c == '\\' then
        match rest with
        | [] => none
        | letter :: after =>
          match lineEnd? (letter :: after), readEscape? letter after with
          | some (_, n), _ =>
            quotedFrom quote (place.newLine (n + 1)) (gap.folded ++ text) (.broken none [])
              (after.drop (n - 1))
          | none, some (d, n) =>
            quotedFrom quote (place.skip (n + 2)) (d :: gap.folded ++ text) .none (after.drop n)
          | none, none => none
      else quotedFrom quote (place.skip 1) (c :: gap.folded ++ text) .none rest
termination_by cs.length
decreasing_by all_goals simp only [List.length_cons, List.length_drop]; omega

/-- Reads a scalar after the first of the two marks around it. -/
def readQuoted (quote : Char) (place : Place) (cs : List Char) : Option Scalar :=
  quotedFrom quote place [] .none cs

end WireHttp.Yaml
