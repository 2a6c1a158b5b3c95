/-
Why a response cannot be sent. None of these is the peer's fault: four
say that the call came at the wrong moment and change nothing, the
others that the response itself would break the framing, after which
nothing more may be written.
-/
import WireHttp.Text.Decimal
import WireHttp.Text.Quoted

namespace WireHttp

/-- A reason to refuse a response or a part of one. -/
inductive Violation
  /-- The body is not as long as was declared. -/
  | lengthMismatch (declared actual : Nat)
  /-- The body grows longer than was declared. -/
  | bodyOverrun (declared attempted : Nat)
  /-- A `Content-Length` header that is not a number. -/
  | invalidContentLength (value : String)
  /-- An interim status, which is no final answer. -/
  | interimStatus (code : Nat)
  /-- A body under a status that has none. -/
  | bodyNotAllowed (code : Nat)
  | unsupportedTransferEncoding (value : String)
  /-- A header whose name is no token, or whose value breaks the line. -/
  | invalidHeader (name : String)
  | noPendingRequest
  | responseInProgress
  | noResponseInProgress
  | closed
  deriving DecidableEq, Repr

namespace Violation

/-- The text of a `Violation`. -/
def message : Violation → String
  | lengthMismatch declared actual =>
    "response body of " ++ Text.Decimal.text actual ++ " bytes does not match content-length "
      ++ Text.Decimal.text declared
  | bodyOverrun declared attempted =>
    "body write of " ++ Text.Decimal.text attempted ++ " bytes overruns content-length "
      ++ Text.Decimal.text declared
  | invalidContentLength value =>
    "content-length header " ++ Text.Quoted.quote value ++ " is not a number"
  | interimStatus code => "interim status " ++ Text.Decimal.text code ++ " cannot be sent"
  | bodyNotAllowed code => "status " ++ Text.Decimal.text code ++ " must not carry a body"
  | unsupportedTransferEncoding value =>
    "transfer-encoding " ++ Text.Quoted.quote value ++ " is not supported"
  | invalidHeader name =>
    "header " ++ Text.Quoted.quote name ++ " contains a forbidden character"
  | noPendingRequest => "no request is awaiting a response"
  | responseInProgress => "a response is already in progress"
  | noResponseInProgress => "no response is in progress"
  | closed => "connection is closed for writing"

/-- Whether the call merely came at the wrong moment. -/
def isMistimed : Violation → Bool
  | noPendingRequest | responseInProgress | noResponseInProgress | closed => true
  | _ => false

end Violation

end WireHttp
