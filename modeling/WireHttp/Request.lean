/-
A fully received request, as it is handed to whoever answers it, and a
draft from which one is built by hand.
-/
import WireHttp.Bytes
import WireHttp.Header
import WireHttp.Method
import WireHttp.Text.Decimal

namespace WireHttp

/-- A request with its whole body. -/
structure Request where
  method : Method
  /-- The request target exactly as sent. -/
  target : String
  version : Version
  headers : Headers
  body : Bytes
  deriving DecidableEq, Repr

namespace Request

/-- The first value of a header. -/
def header? (r : Request) (name : String) : Option String :=
  r.headers.value? name

/-- The length that the first `Content-Length` header declares, 0 if
there is none or it is not a number. -/
def contentLength (r : Request) : Nat :=
  ((r.header? "Content-Length").bind fun v =>
    Text.Decimal.readWord? (Text.trim v.toList)).getD 0

/-- Whether the connection may be used again after this request. -/
def keepAlive (r : Request) : Bool :=
  r.headers.keepAlive r.version

/-- The target up to its first question mark. -/
def path (r : Request) : String :=
  String.ofList (r.target.toList.takeWhile (· != '?'))

/-- The target after its first question mark, if it has one. -/
def query? (r : Request) : Option String :=
  match r.target.toList.dropWhile (· != '?') with
  | [] => none
  | _ :: query => some (String.ofList query)

end Request

/-- A request under construction. -/
structure RequestDraft where
  method : Option Method := none
  target : Option String := none
  version : Version := .http11
  headers : Headers := []
  body : Bytes := []
  deriving DecidableEq, Repr

/-- What a draft can lack. -/
inductive DraftError
  | methodMissing
  | targetMissing
  deriving DecidableEq, Repr

/-- The text of a `DraftError`. -/
def DraftError.message : DraftError → String
  | methodMissing => "method missing"
  | targetMissing => "target missing"

/-- The request a draft describes; a missing method is found before a
missing target. -/
def RequestDraft.build (d : RequestDraft) : Except DraftError Request :=
  match d.method, d.target with
  | none, _ => .error .methodMissing
  | _, none => .error .targetMissing
  | some method, some target =>
    .ok { method, target, version := d.version, headers := d.headers, body := d.body }

end WireHttp
