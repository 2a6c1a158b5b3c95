/-
Responses as they are handed back for a request, before the core adds
its own headers and writes them.
-/
import WireHttp.Header
import WireHttp.Status
import WireHttp.Text.Utf8

namespace WireHttp

/-- A response: its headers keep their order and are written as given. -/
structure Response where
  status : Status
  headers : Headers := []
  body : Bytes := []
  deriving DecidableEq, Repr

namespace Response

/-- The first value of a header. -/
def header? (r : Response) (name : String) : Option String :=
  r.headers.value? name

/-- A plain text response. -/
def plainText (status : Status) (body : Bytes) : Response :=
  { status, headers := [⟨"content-type", "text/plain"⟩], body }

/-- A plain text response of status 200. -/
def ok (body : Bytes) : Response :=
  plainText .ok body

/-- A plain text response whose body is the status itself. -/
def ofStatus (status : Status) : Response :=
  plainText status (Text.Utf8.encode status.text)

def notFound : Response := ofStatus .notFound

def internalError : Response := ofStatus .internalError

/-- The response with a `close` option, added unless it has one. -/
def withClose (r : Response) : Response :=
  if r.headers.asksClose then r
  else { r with headers := r.headers ++ [⟨"connection", "close"⟩] }

/-- With `withClose`, a response asks for the close. -/
theorem asksClose_withClose (r : Response) : r.withClose.headers.asksClose = true := by
  unfold withClose
  split
  · assumption
  · simp only [Headers.asksClose, Headers.hasToken_append, Bool.or_eq_true]
    exact Or.inr (by decide)

end Response

end WireHttp
