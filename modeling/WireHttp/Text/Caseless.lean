/-
Comparison that ignores the case of ASCII letters and of no others, as
header names and connection options are compared.
-/

namespace WireHttp.Text

/-- The characters of `s` with every ASCII capital made small. -/
def foldCase (cs : List Char) : List Char :=
  cs.map Char.toLower

/-- Equality up to the case of ASCII letters. -/
def sameIgnoringCase (a b : List Char) : Bool :=
  foldCase a == foldCase b

theorem sameIgnoringCase_iff {a b : List Char} :
    sameIgnoringCase a b = true ↔ foldCase a = foldCase b := by
  simp [sameIgnoringCase]

@[simp] theorem sameIgnoringCase_self (a : List Char) : sameIgnoringCase a a = true := by
  simp [sameIgnoringCase]

end WireHttp.Text
