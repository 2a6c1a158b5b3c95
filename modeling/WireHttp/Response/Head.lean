/-
The head of a response on the wire: its status line, its header lines in
order and a blank line; and the check that decides whether a head may be
sent at all. A head that passes cannot be misread: no line of it can be
broken in two, and no header contradicts the length of the body.
-/
import WireHttp.Header
import WireHttp.Response.Violation
import WireHttp.Status
import WireHttp.Text.Utf8
import WireHttp.Token

namespace WireHttp

-- ===================================================== written form

/-- A header line with its line end. -/
def Header.render (h : Header) : Bytes :=
  Text.Utf8.encode (h.name ++ ": " ++ h.value ++ "\r\n")

/-- A status line with its line end. -/
def Status.renderLine (s : Status) : Bytes :=
  Text.Utf8.encode ("HTTP/1.1 " ++ s.text ++ "\r\n")

/-- Status line, header lines and blank line. -/
def renderHead (status : Status) (headers : Headers) : Bytes :=
  status.renderLine ++ headers.flatMap Header.render ++ [13, 10]

-- ============================================================ check

/-- A character that would end a header line early. -/
def breaksLine (c : Char) : Bool :=
  c == '\r' || c == '\n' || c == '\x00'

/-- What is wrong with one header of a response with `length` body
bytes. -/
def Header.fault? (length : Nat) (h : Header) : Option Violation :=
  if !isToken h.name.toList || h.value.toList.any breaksLine then some (.invalidHeader h.name)
  else if h.isNamed "Transfer-Encoding" then some (.unsupportedTransferEncoding h.value)
  else if h.isNamed "Content-Length" then
    match Text.Decimal.readWord? (Text.trim h.value.toList) with
    | none => some (.invalidContentLength h.value)
    | some declared => if declared = length then none else some (.lengthMismatch declared length)
  else none

/-- What is wrong with the head of a response with `length` body bytes:
its status first, then its headers in order, then a body where none may
be. -/
def headFault? (status : Status) (headers : Headers) (length : Nat) : Option Violation :=
  if status.isInterim then some (.interimStatus status.code)
  else
    match headers.findSome? (Header.fault? length) with
    | some fault => some fault
    | none =>
      if !status.allowsBody && 0 < length then some (.bodyNotAllowed status.code) else none

/-- The headers as they are sent: the length is added unless it is
declared or the status has no body, and the connection's fate where the
peer would not expect it. -/
def outboundHeaders (status : Status) (headers : Headers) (length : Nat) (close http10 : Bool) :
    Headers :=
  let withLength :=
    if !headers.any (·.isNamed "Content-Length") && status.allowsBody then
      headers ++ [⟨"content-length", Text.Decimal.text length⟩]
    else headers
  if close && !headers.asksClose then withLength ++ [⟨"connection", "close"⟩]
  else if !close && http10 && !headers.asksKeepAlive then
    withLength ++ [⟨"connection", "keep-alive"⟩]
  else withLength

end WireHttp
