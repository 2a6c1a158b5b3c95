/-
The head of a request, and the ways in which the start of a byte stream
can fail to be one.
-/
import WireHttp.Header
import WireHttp.Method
import WireHttp.Status

namespace WireHttp

/-- A request line and header block that have been read. -/
structure Head where
  method : Method
  target : String
  version : Version
  headers : Headers
  /-- The length of the body that follows, 0 if none is declared. -/
  contentLength : Nat
  deriving DecidableEq, Repr

namespace Head

/-- The first value of a header. -/
def header? (h : Head) (name : String) : Option String :=
  h.headers.value? name

/-- Whether the connection may be used again after this request. -/
def keepAlive (h : Head) : Bool :=
  h.headers.keepAlive h.version

end Head

/-- Why bytes are no request head that can be served. -/
inductive HeadError
  /-- The end of the head has not arrived yet. -/
  | incomplete
  | malformedRequestLine
  | invalidMethod
  | invalidTarget
  | malformedVersion
  | unsupportedVersion (version : String)
  | malformedHeader
  | invalidContentLength
  | unsupportedTransferEncoding
  /-- No head ends within the limit. -/
  | headTooLarge (limit : Nat)
  | bodyTooLarge (declared limit : Nat)
  deriving DecidableEq, Repr

namespace HeadError

/-- The text of a `HeadError`. -/
def message : HeadError → String
  | incomplete => "incomplete request head"
  | malformedRequestLine => "malformed request line"
  | invalidMethod => "invalid method token"
  | invalidTarget => "invalid request target"
  | malformedVersion => "malformed HTTP version"
  | unsupportedVersion version => "unsupported HTTP version " ++ version
  | malformedHeader => "malformed header line"
  | invalidContentLength => "invalid content-length"
  | unsupportedTransferEncoding => "transfer-encoding is not supported"
  | headTooLarge limit => "request head exceeds " ++ Text.Decimal.text limit ++ " bytes"
  | bodyTooLarge declared limit =>
    "declared body of " ++ Text.Decimal.text declared ++ " bytes exceeds limit of "
      ++ Text.Decimal.text limit

/-- The status that the peer is told. -/
def status : HeadError → Status
  | headTooLarge _ => .headTooLarge
  | bodyTooLarge _ _ => .payloadTooLarge
  | unsupportedTransferEncoding => .notImplemented
  | unsupportedVersion _ => .versionNotSupported
  | _ => .badRequest

end HeadError

end WireHttp
