/-
Numerals to bases up to sixteen. A numeral has at least one digit and
nothing but digits, and letters count in either case. It is read up to a
bound: a number that is not below the bound is not read at all, however
many digits it has.
-/

namespace WireHttp.Text.Radix

/-- The value of a digit to a base. -/
def digit? (base : Nat) (c : Char) : Option Nat :=
  let value? :=
    if c.isDigit then some (c.toNat - '0'.toNat)
    else if 'a' ≤ c ∧ c ≤ 'f' then some (c.toNat - 'a'.toNat + 10)
    else if 'A' ≤ c ∧ c ≤ 'F' then some (c.toNat - 'A'.toNat + 10)
    else none
  value?.filter (· < base)

/-- The number that has one more digit after those of `n`. -/
def next? (base bound n : Nat) (c : Char) : Option Nat :=
  (digit? base c).bind fun d => if base * n + d < bound then some (base * n + d) else none

/-- The number that digits to a base denote, if it is below a bound. -/
def readBelow? (base bound : Nat) (cs : List Char) : Option Nat :=
  if cs.isEmpty then none else cs.foldlM (next? base bound) 0

end WireHttp.Text.Radix
