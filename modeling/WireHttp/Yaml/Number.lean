/-
Whole numbers among plain scalars: decimal digits without a leading
zero, or digits to base 16, 8 or 2 after `0x`, `0o` or `0b`, all with or
without a plus sign before them. What has another form is text.
-/
import WireHttp.Text.Decimal
import WireHttp.Text.Radix

namespace WireHttp.Yaml

/-- The number that digits to a base denote, if it fits in a word. -/
def readDigits? (base : Nat) (cs : List Char) : Option Nat :=
  Text.Radix.readBelow? base Text.Decimal.wordSize cs

/-- The whole number that a plain scalar denotes, if it denotes one that
fits in a word. -/
def readNumber? (text : String) : Option Nat :=
  let unsigned := match text.toList with
    | '+' :: cs => cs
    | cs => cs
  match unsigned with
  | '0' :: 'x' :: cs => readDigits? 16 cs
  | '0' :: 'o' :: cs => readDigits? 8 cs
  | '0' :: 'b' :: cs => readDigits? 2 cs
  | '0' :: _ :: _ => none
  | cs => readDigits? 10 cs

end WireHttp.Yaml
