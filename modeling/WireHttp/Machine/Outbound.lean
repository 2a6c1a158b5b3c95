/-
The sending half of the machine. A response is started with the length
of its body, given its body in pieces and finished; the length must come
out exactly. Responses answer the owed requests in order.

A refused call leaves the machine as it was if it only came at the wrong
moment. Any other refusal ends the connection for writing, because what
is already on the wire can no longer be completed.
-/
import WireHttp.Machine.Basic
import WireHttp.Response
import WireHttp.Response.Head

namespace WireHttp.Machine

/-- The machine after a response has broken the framing. -/
def failOutbound (m : Machine) : Machine :=
  { m.enterClosing with outbound := .closed }

/-- Whether the connection ends with the answer to the oldest owed
request: the request or the answer asks for it, or nothing is left to
answer and no more requests are read. -/
def closesAfter (m : Machine) (exchange : Exchange) (headers : Headers) : Bool :=
  (m.phase == .closing && m.owed.length == 1) || !exchange.keepAlive || headers.asksClose

/-- Starts the response to the oldest owed request, whose body will be
`length` bytes long, and gives its head. -/
def startResponse (m : Machine) (status : Status) (headers : Headers) (length : Nat) :
    Except Violation Bytes × Machine :=
  match m.outbound, m.owed with
  | .closed, _ => (.error .closed, m)
  | .sending .., _ => (.error .responseInProgress, m)
  | .idle, [] => (.error .noPendingRequest, m)
  | .idle, exchange :: owed =>
    match headFault? status headers length with
    | some fault => (.error fault, m.failOutbound)
    | none =>
      let close := m.closesAfter exchange headers
      (.ok (renderHead status (outboundHeaders status headers length close exchange.http10)),
        { m with
          owed
          mustClose := m.mustClose || close
          outbound := .sending length 0 exchange.headOnly close })

/-- Accounts for a piece of the response's body and gives the bytes of
it that go on the wire: none in answer to a `HEAD`. What has been written
and the piece are added up exactly, as 64-bit words are for as long as the
sum is below 2^64. -/
def sendBody (m : Machine) (data : Bytes) : Except Violation Bytes × Machine :=
  match m.outbound with
  | .sending declared written suppress close =>
    let attempted := written + data.length
    if declared < attempted then (.error (.bodyOverrun declared attempted), m.failOutbound)
    else
      (.ok (if suppress then [] else data),
        { m with outbound := .sending declared attempted suppress close })
  | .idle | .closed => (.error .noResponseInProgress, m)

/-- Completes the response. -/
def finishResponse (m : Machine) : Except Violation Unit × Machine :=
  match m.outbound with
  | .sending declared written _ close =>
    if written ≠ declared then (.error (.lengthMismatch declared written), m.failOutbound)
    else if close then (.ok (), { m.enterClosing with outbound := .closed })
    else (.ok (), { m with outbound := .idle })
  | .idle | .closed => (.error .noResponseInProgress, m)

/-- Starts, fills and completes a response, and gives its bytes. -/
def sendResponse (m : Machine) (r : Response) : Except Violation Bytes × Machine :=
  match m.startResponse r.status r.headers r.body.length with
  | (.error fault, m) => (.error fault, m)
  | (.ok head, m) =>
    match m.sendBody r.body with
    | (.error fault, m) => (.error fault, m)
    | (.ok body, m) =>
      match m.finishResponse with
      | (.error fault, m) => (.error fault, m)
      | (.ok (), m) => (.ok (head ++ body), m)

end WireHttp.Machine
