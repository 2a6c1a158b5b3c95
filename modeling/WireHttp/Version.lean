/-
The two protocol versions that can be served.
-/

namespace WireHttp

/-- A protocol version of a request. -/
inductive Version
  | http10
  | http11
  deriving DecidableEq, Repr

namespace Version

/-- A version as the request line writes it. -/
def text : Version → String
  | http10 => "HTTP/1.0"
  | http11 => "HTTP/1.1"

end Version

end WireHttp
