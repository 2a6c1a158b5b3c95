/-
Header lines. Their order is kept, a name may occur more than once, and
names are compared without regard to the case of ASCII letters. A header
may hold a comma-separated list; the elements of all headers of one name
together form one list, which is what persistence depends on.
-/
import WireHttp.Text.Blank
import WireHttp.Text.Caseless
import WireHttp.Version

namespace WireHttp

/-- One header line. -/
structure Header where
  name : String
  value : String
  deriving DecidableEq, Repr

/-- A header block, in order. -/
abbrev Headers := List Header

/-- Whether a header has the given name. -/
def Header.isNamed (h : Header) (name : String) : Bool :=
  Text.sameIgnoringCase h.name.toList name.toList

/-- The elements of a header's comma-separated value, trimmed. -/
def Header.elements (h : Header) : List (List Char) :=
  (h.value.toList.splitOn ',').map Text.trim

namespace Headers

/-- The first value given for a name. -/
def value? (hs : Headers) (name : String) : Option String :=
  (hs.find? (·.isNamed name)).map (·.value)

/-- The list elements of every header of one name, in order. -/
def elements (hs : Headers) (name : String) : List (List Char) :=
  (hs.filter (·.isNamed name)).flatMap (·.elements)

/-- Whether some header of one name lists a token, in any case. -/
def hasToken (hs : Headers) (name token : String) : Bool :=
  (hs.elements name).any (Text.sameIgnoringCase · token.toList)

/-- The peer, or the answer, asks that the connection be closed. -/
def asksClose (hs : Headers) : Bool :=
  hs.hasToken "Connection" "close"

/-- The peer, or the answer, asks that the connection be kept open. -/
def asksKeepAlive (hs : Headers) : Bool :=
  hs.hasToken "Connection" "keep-alive"

/-- Whether a connection outlives a message of this version with these
headers: a `close` option always ends it; otherwise 1.1 persists, and
1.0 does only if asked to. -/
def keepAlive (version : Version) (hs : Headers) : Bool :=
  if hs.asksClose then false
  else match version with
    | .http11 => true
    | .http10 => hs.asksKeepAlive

@[simp] theorem elements_nil (name : String) : elements [] name = [] := rfl

@[simp] theorem elements_append (hs ks : Headers) (name : String) :
    elements (hs ++ ks) name = elements hs name ++ elements ks name := by
  simp [elements]

@[simp] theorem hasToken_nil (name token : String) : hasToken [] name token = false := rfl

@[simp] theorem hasToken_append (hs ks : Headers) (name token : String) :
    hasToken (hs ++ ks) name token = (hasToken hs name token || hasToken ks name token) := by
  simp [hasToken]

end Headers

end WireHttp
