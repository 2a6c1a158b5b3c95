/-
The carrier of everything that crosses the wire. A byte string is a
list, so a prefix, a suffix and a cut are `take`, `drop` and `++`, and a
law about framing is a law about lists.
-/

namespace WireHttp

/-- A string of bytes. -/
abbrev Bytes := List UInt8

end WireHttp
