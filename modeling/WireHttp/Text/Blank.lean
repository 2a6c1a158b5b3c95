/-
White space and trimming. Two notions are in use: HTTP's own optional
white space, a run of spaces and tabs, and the Unicode property
`White_Space`, which list tokens and outbound lengths are trimmed of.
-/

namespace WireHttp.Text

/-- A space or a horizontal tab: the optional white space of a header line. -/
def isOws (c : Char) : Bool :=
  c == ' ' || c == '\t'

/-- The Unicode property `White_Space`, all twenty-five characters of it. -/
def isBlank (c : Char) : Bool :=
  let n := c.toNat
  (0x09 ≤ n && n ≤ 0x0D) || n == 0x20 || n == 0x85 || n == 0xA0 || n == 0x1680
    || (0x2000 ≤ n && n ≤ 0x200A) || n == 0x2028 || n == 0x2029 || n == 0x202F
    || n == 0x205F || n == 0x3000

/-- `cs` without the characters of class `p` at either end. -/
def trimBy (p : Char → Bool) (cs : List Char) : List Char :=
  ((cs.dropWhile p).reverse.dropWhile p).reverse

/-- `cs` without white space at either end. -/
def trim (cs : List Char) : List Char :=
  trimBy isBlank cs

@[simp] theorem trimBy_nil (p : Char → Bool) : trimBy p [] = [] := rfl

end WireHttp.Text
