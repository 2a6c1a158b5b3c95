/-
Texts in quotation marks, for messages that name what they complain
about. Inside the marks a backslash, a quotation mark and whatever
cannot be shown are written as escapes; an apostrophe stands as it is.
-/
import WireHttp.Text.Printable

namespace WireHttp.Text.Quoted

/-- The hexadecimal numeral of a code point, in braces. -/
def codePoint (c : Char) : List Char :=
  ['\\', 'u', '\x7b'] ++ Nat.toDigits 16 c.toNat ++ ['\x7d']

/-- A character as it stands between quotation marks. -/
def escape (c : Char) : List Char :=
  match c with
  | '\x00' => ['\\', '0']
  | '\t' => ['\\', 't']
  | '\n' => ['\\', 'n']
  | '\r' => ['\\', 'r']
  | '"' => ['\\', '"']
  | '\\' => ['\\', '\\']
  | c => if isPrintable c then [c] else codePoint c

/-- A text in quotation marks. -/
def quote (s : String) : String :=
  String.ofList ('"' :: s.toList.flatMap escape ++ ['"'])

end WireHttp.Text.Quoted
