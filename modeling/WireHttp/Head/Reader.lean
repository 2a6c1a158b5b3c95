/-
Reading a request head from the front of a buffer. The head is cut off
at its delimiter, read as text and taken apart line by line; then the
header block as a whole decides the length of the body.

The verdict depends on nothing after the delimiter. While there is no
delimiter the head is incomplete, unless so many bytes have arrived that
it must be too large.
-/
import WireHttp.Head.Basic
import WireHttp.Head.Delimiter
import WireHttp.Limits
import WireHttp.Text.Split
import WireHttp.Text.Utf8

namespace WireHttp

-- ================================================== the request line

/-- A character of a request target: no blank and no ASCII control. -/
def isTargetChar (c : Char) : Bool :=
  0x20 < c.toNat && c.toNat != 0x7F

/-- A character of a header value: no ASCII control but the tab. -/
def isValueChar (c : Char) : Bool :=
  c == '\t' || (0x20 ≤ c.toNat && c.toNat != 0x7F)

/-- A version that is well formed is served or refused by name. -/
def Version.read (cs : List Char) : Except HeadError Version :=
  if cs = Version.http11.text.toList then .ok .http11
  else if cs = Version.http10.text.toList then .ok .http10
  else match cs with
    | ['H', 'T', 'T', 'P', '/', major, '.', minor] =>
      if major.isDigit && minor.isDigit then .error (.unsupportedVersion (String.ofList cs))
      else .error .malformedVersion
    | _ => .error .malformedVersion

/-- What a request line says. -/
structure RequestLine where
  method : Method
  target : String
  version : Version
  deriving DecidableEq, Repr

/-- A request line is a method, a target and a version with one blank
after each of the first two; faults are found from left to right. -/
def RequestLine.read (line : List Char) : Except HeadError RequestLine := do
  let some (method, line) := Text.cut? ' ' line | .error .malformedRequestLine
  let some (target, version) := Text.cut? ' ' line | .error .malformedRequestLine
  let some method := Method.ofText? (String.ofList method) | .error .invalidMethod
  if target.isEmpty || !target.all isTargetChar then .error .invalidTarget
  let version ← Version.read version
  return { method, target := String.ofList target, version }

-- ================================================== the header block

/-- A header line is a token, a colon and a value that may have optional
white space around it. White space before the colon, or at the front of
a line that continues another, is refused. -/
def Header.read? (line : List Char) : Option Header :=
  (Text.cut? ':' line).bind fun (name, rest) =>
    let value := Text.trimBy Text.isOws rest
    if isToken name && value.all isValueChar then
      some ⟨String.ofList name, String.ofList value⟩
    else none

/-- The header lines of a block, if every one of them is well formed. -/
def Headers.read? : List (List Char) → Option Headers
  | [] => some []
  | line :: rest =>
    match Header.read? line, Headers.read? rest with
    | some h, some hs => some (h :: hs)
    | _, _ => none

/-- The values that a header block declares as the body's length. -/
def Headers.declaredLengths (hs : Headers) : List (Option Nat) :=
  (hs.filter (·.isNamed "Content-Length")).map fun h => Text.Decimal.readDigits? h.value.toList

/-- The one length that all `Content-Length` headers declare, 0 if there
is none of them; `none` if one is no digit string that fits in a word,
or two differ. -/
def Headers.bodyLength? (hs : Headers) : Option Nat :=
  match hs.declaredLengths with
  | [] => some 0
  | declared :: rest => if rest.all (· == declared) then declared else none

-- =========================================================== the head

namespace Head

/-- A head from its lines. The order in which faults are looked for is
the request line, each header line, transfer encoding, body length. -/
def ofLines (limits : Limits) (first : List Char) (rest : List (List Char)) :
    Except HeadError Head := do
  let line ← RequestLine.read first
  let some headers := Headers.read? rest | .error .malformedHeader
  if headers.any (·.isNamed "Transfer-Encoding") then .error .unsupportedTransferEncoding
  let some length := headers.bodyLength? | .error .invalidContentLength
  if limits.maxBody.toNat < length then .error (.bodyTooLarge length limits.maxBody.toNat)
  return { method := line.method, target := line.target, version := line.version,
           headers, contentLength := length }

/-- A head from its bytes, the delimiter not among them. -/
def ofBytes (limits : Limits) (block : Bytes) : Except HeadError Head :=
  match Text.Utf8.decode? block with
  | none => .error .malformedRequestLine
  | some text =>
    match Text.lines text.toList with
    | [] => .error .malformedRequestLine
    | first :: rest => ofLines limits first rest

/-- The head at the front of a buffer, and the number of bytes that it
takes up with its delimiter. -/
def read (limits : Limits) (buffer : Bytes) : Except HeadError (Head × Nat) :=
  match Delimiter.find? buffer 0 with
  | none =>
    if limits.maxHead < buffer.length then .error (.headTooLarge limits.maxHead)
    else .error .incomplete
  | some stop =>
    if limits.maxHead < stop + Delimiter.mark.length then .error (.headTooLarge limits.maxHead)
    else (ofBytes limits (buffer.take stop)).map (·, stop + Delimiter.mark.length)

/-- A head that was read takes up at least its delimiter, and no more
than the buffer holds. -/
theorem consumed_of_read {limits : Limits} {buffer : Bytes} {head : Head} {consumed : Nat}
    (h : read limits buffer = .ok (head, consumed)) :
    Delimiter.mark.length ≤ consumed ∧ consumed ≤ buffer.length := by
  unfold read at h
  split at h
  · split at h <;> cases h
  · next stop hs =>
    split at h
    · cases h
    · cases hb : ofBytes limits (buffer.take stop) with
      | error e => simp [hb, Except.map] at h
      | ok head' =>
        simp only [hb, Except.map, Except.ok.injEq, Prod.mk.injEq] at h
        have := Delimiter.le_of_find? hs
        omega

end Head

end WireHttp
