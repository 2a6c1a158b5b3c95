/-
Tokens: the names of methods and header fields. A token is a non-empty
run of letters, digits and fifteen marks, all of them ASCII, so a token
holds no blank, no colon and no line end.
-/

namespace WireHttp

/-- A character that may stand in a token. -/
def isTokenChar (c : Char) : Bool :=
  c.isAlphanum
    || ['!', '#', '$', '%', '&', '\'', '*', '+', '-', '.', '^', '_', '\x60', '|', '~'].contains c

/-- A non-empty run of token characters. -/
def isToken (cs : List Char) : Bool :=
  !cs.isEmpty && cs.all isTokenChar

theorem isToken_iff {cs : List Char} :
    isToken cs = true ↔ cs ≠ [] ∧ ∀ c ∈ cs, isTokenChar c = true := by
  simp [isToken]

end WireHttp
