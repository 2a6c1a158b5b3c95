/-
Characters and places of a YAML text. A line ends with a line feed, a
carriage return, both in this order, a next-line character or one of the
two Unicode separators; a blank is a space or a tab.
-/

namespace WireHttp.Yaml

/-- A character that may stand in a YAML text at all. -/
def isAllowed (c : Char) : Bool :=
  let n := c.toNat
  n == 0x09 || n == 0x0A || n == 0x0D || (0x20 ≤ n && n ≤ 0x7E) || n == 0x85
    || (0xA0 ≤ n && n ≤ 0xD7FF) || (0xE000 ≤ n && n ≤ 0xFFFD) || 0x10000 ≤ n

/-- A space or a tab. -/
def isBlank (c : Char) : Bool :=
  c == ' ' || c == '\t'

/-- A character that ends a line. -/
def isBreak (c : Char) : Bool :=
  c == '\n' || c == '\r' || c == '\u0085' || c == '\u2028' || c == '\u2029'

/-- Whether a text ends here, or goes on with a blank or a new line. -/
def endsWord : List Char → Bool
  | [] => true
  | c :: _ => isBlank c || isBreak c

/-- Whether a mark of three characters that separates documents stands
here; it does so only at the beginning of a line. -/
def startsDocument : List Char → Bool
  | '-' :: '-' :: '-' :: cs | '.' :: '.' :: '.' :: cs => endsWord cs
  | _ => false

/-- A place in a text: how many characters stand before it in all and in
its line, and how many lines. -/
structure Place where
  index : Nat := 0
  line : Nat := 0
  column : Nat := 0
  deriving DecidableEq, Repr

namespace Place

/-- The place after `n` characters that end no line. -/
def skip (p : Place) (n : Nat) : Place :=
  { p with index := p.index + n, column := p.column + n }

/-- The place after a line end of `n` characters. -/
def newLine (p : Place) (n : Nat) : Place :=
  { index := p.index + n, line := p.line + 1, column := 0 }

end Place

/-- What a line end at the front of a text stands for in a scalar, and
how many characters it has. All stand for a line feed but the two
separators, which stand for themselves. -/
def lineEnd? : List Char → Option (Char × Nat)
  | [] => none
  | '\r' :: '\n' :: _ => some ('\n', 2)
  | c :: _ =>
    if c == '\u2028' || c == '\u2029' then some (c, 1)
    else if isBreak c then some ('\n', 1)
    else none

/-- A line end has at least one character. -/
theorem length_drop_lineEnd_lt {cs : List Char} {d : Char} {n : Nat}
    (h : lineEnd? cs = some (d, n)) : (cs.drop n).length < cs.length := by
  unfold lineEnd? at h
  split at h
  · cases h
  · obtain ⟨-, rfl⟩ := Prod.mk.inj (Option.some.inj h)
    simp only [List.length_drop, List.length_cons]
    omega
  · next c rest _ =>
    have hn : n = 1 := by
      split at h
      · exact (Prod.mk.inj (Option.some.inj h)).2.symm
      · split at h
        · exact (Prod.mk.inj (Option.some.inj h)).2.symm
        · cases h
    simp [hn]

-- ========================================================== folding

/-- What has been met since the last character of a scalar that is
neither blank nor a line end. -/
inductive Gap
  | none
  /-- Blanks within a line, the last one first. -/
  | blanks (cs : List Char)
  /-- A line end, and the further ones after it, the last one first. A
  line end that is escaped is no character. -/
  | broken (first : Option Char) (more : List Char)
  deriving DecidableEq, Repr

namespace Gap

/-- The gap with one more blank; blanks next to a line end do not count. -/
def addBlank (c : Char) : Gap → Gap
  | none => blanks [c]
  | blanks cs => blanks (c :: cs)
  | broken first more => broken first more

/-- The gap with one more line end, which stands for `c`. -/
def addBreak (c : Char) : Gap → Gap
  | none | blanks _ => broken c []
  | broken first more => broken first (c :: more)

/-- Whether a line has ended in the gap. -/
def isBroken : Gap → Bool
  | broken _ _ => true
  | none | blanks _ => false

/-- What the gap contributes to the scalar, last character first. A
single line feed becomes a space, and of several the first is dropped. -/
def folded : Gap → List Char
  | none => []
  | blanks cs => cs
  | broken (some '\n') [] => [' ']
  | broken (some '\n') more => more
  | broken first more => more ++ first.toList

end Gap

end WireHttp.Yaml
