/-
The seam between the core and whoever answers requests. An answer is a
response, a failure with or without a response of its own, or a panic;
after any of the failures the connection is closed.
-/
import WireHttp.Request
import WireHttp.Response

namespace WireHttp

/-- A failure and the contexts it was met in, innermost first. -/
structure Fault where
  cause : String
  contexts : List String := []
  deriving DecidableEq, Repr

namespace Fault

/-- The outermost description alone. -/
def message (f : Fault) : String :=
  f.contexts.getLastD f.cause

/-- Every description, the outermost first. -/
def chain (f : Fault) : String :=
  ": ".intercalate (f.cause :: f.contexts).reverse

end Fault

/-- How answering a request can fail. -/
inductive DispatchError
  /-- No response is available, and the peer is told of an internal
  error. -/
  | fault (fault : Fault)
  /-- A response is supplied all the same. -/
  | respond (response : Response)
  deriving DecidableEq, Repr

/-- The text of a `DispatchError`. -/
def DispatchError.message : DispatchError → String
  | fault f => "dispatcher fault: " ++ f.message
  | respond r => "dispatcher error response (" ++ r.status.text ++ ")"

/-- What became of a request that was handed over to be answered. -/
inductive Outcome
  | answered (response : Response)
  | failed (error : DispatchError)
  /-- It never came back; the message is there if there was a text. -/
  | panicked (message : Option String)
  deriving DecidableEq, Repr

/-- What a panic is reported as. -/
def panicText (message : Option String) : String :=
  message.getD "unknown panic"

/-- The answer that repeats a request's method and target. -/
def Request.echo (r : Request) : Response :=
  .ok (Text.Utf8.encode (r.method.text ++ " " ++ r.target))

end WireHttp
