/-
The bounds put on a request while it is framed.
-/

namespace WireHttp

/-- Bounds on what a peer may send. -/
structure Limits where
  /-- The largest request line plus header block, blank line included. -/
  maxHead : Nat := 16 * 1024
  /-- The largest body length accepted. -/
  maxBody : UInt64 := 1024 * 1024
  deriving DecidableEq, Repr

end WireHttp
