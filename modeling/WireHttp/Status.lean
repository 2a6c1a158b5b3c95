/-
Status codes. Any three-digit code is a status, registered or not; the
reason phrase of an unregistered one is empty.
-/
import WireHttp.Text.Decimal

namespace WireHttp

/-- A three-digit status code. -/
structure Status where
  code : Nat
  hundred_le : 100 ≤ code := by decide
  le_limit : code ≤ 999 := by decide
  deriving DecidableEq, Repr

namespace Status

/-- The status with a given code, if it has three digits. -/
def ofCode? (code : Nat) : Option Status :=
  if h : 100 ≤ code ∧ code ≤ 999 then some ⟨code, h.1, h.2⟩ else none

def ok : Status := ⟨200, by decide, by decide⟩
def badRequest : Status := ⟨400, by decide, by decide⟩
def notFound : Status := ⟨404, by decide, by decide⟩
def payloadTooLarge : Status := ⟨413, by decide, by decide⟩
def headTooLarge : Status := ⟨431, by decide, by decide⟩
def internalError : Status := ⟨500, by decide, by decide⟩
def notImplemented : Status := ⟨501, by decide, by decide⟩
def versionNotSupported : Status := ⟨505, by decide, by decide⟩

/-- The registered reason phrase, empty for a code without one. -/
def reason (s : Status) : String :=
  match s.code with
  | 100 => "Continue"
  | 101 => "Switching Protocols"
  | 200 => "OK"
  | 201 => "Created"
  | 202 => "Accepted"
  | 204 => "No Content"
  | 206 => "Partial Content"
  | 301 => "Moved Permanently"
  | 302 => "Found"
  | 303 => "See Other"
  | 304 => "Not Modified"
  | 307 => "Temporary Redirect"
  | 308 => "Permanent Redirect"
  | 400 => "Bad Request"
  | 401 => "Unauthorized"
  | 403 => "Forbidden"
  | 404 => "Not Found"
  | 405 => "Method Not Allowed"
  | 408 => "Request Timeout"
  | 409 => "Conflict"
  | 411 => "Length Required"
  | 413 => "Payload Too Large"
  | 415 => "Unsupported Media Type"
  | 422 => "Unprocessable Entity"
  | 429 => "Too Many Requests"
  | 431 => "Request Header Fields Too Large"
  | 500 => "Internal Server Error"
  | 501 => "Not Implemented"
  | 502 => "Bad Gateway"
  | 503 => "Service Unavailable"
  | 504 => "Gateway Timeout"
  | 505 => "HTTP Version Not Supported"
  | _ => ""

/-- An interim answer, which no final answer may be. -/
def isInterim (s : Status) : Bool :=
  s.code < 200

/-- Interim answers, 204 and 304 never carry a body; all others may. -/
def allowsBody (s : Status) : Bool :=
  !(s.isInterim || s.code == 204 || s.code == 304)

/-- Code and reason phrase, with the blank between them even where the
phrase is empty. -/
def text (s : Status) : String :=
  Text.Decimal.text s.code ++ " " ++ s.reason

end Status

end WireHttp
