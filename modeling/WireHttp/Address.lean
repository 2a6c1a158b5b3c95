/-
Where a server listens. The host of an address may be written in numbers,
one to four of them with points between: each but the last is one byte,
and the last fills the bytes that are left. So `127.0.0.1`, `127.1` and
`0x7f000001` are the same host.
-/
import WireHttp.Text.Decimal
import WireHttp.Text.Radix
import WireHttp.Text.Split

namespace WireHttp

/-- Where a server listens: a host, and the number of a service there. -/
structure Address where
  host : String
  service : UInt16
  deriving DecidableEq, Repr

/-- An address is a host and a service number with a colon between them;
a host may have colons of its own. -/
def Address.read? (s : String) : Option Address :=
  (Text.cut? ':' s.toList.reverse).bind fun (number, host) =>
    ((Text.Decimal.readWord? number.reverse).filter (· < UInt16.size)).map fun n =>
      ⟨String.ofList host.reverse, UInt16.ofNat n⟩

namespace NumericHost

/-- One number of a host: hexadecimal after `0x`, octal after `0`, and
decimal otherwise. -/
def part? : List Char → Option Nat
  | '0' :: c :: cs =>
    if c == 'x' || c == 'X' then Text.Radix.readBelow? 16 UInt32.size cs
    else Text.Radix.readBelow? 8 UInt32.size (c :: cs)
  | cs => Text.Radix.readBelow? 10 UInt32.size cs

/-- The number that the parts make together, of `room` numbers that it
could be. -/
def ofParts? (room : Nat) : List Nat → Option Nat
  | [] => none
  | [last] => if last < room then some last else none
  | byte :: rest =>
    let room := room / 256
    if byte < 256 ∧ 1 < room then (ofParts? room rest).map (byte * room + ·) else none

/-- The 32-bit number of a host that is written in numbers. -/
def read? (host : String) : Option Nat :=
  ((host.toList.splitOn '.').mapM part?).bind (ofParts? UInt32.size)

end NumericHost

end WireHttp
