/-
The framing of a connection in registers. A `Machine` holds the request
that is being read in its phase, where it can be neither missing nor left
over. Here every part has a register of its own: the state of the reading,
how far a head has been searched, and what is kept of the request that is
arriving. Nothing but the operations keeps them in step; what was kept of a
request may even outlast it, where a response ends the reading within a
body.

A poll goes round until it has something to say. Each round either does,
or moves on to a state of lower rank, so that two rounds at most are gone
in vain.
-/
import WireHttp.Machine.Inbound
import WireHttp.Machine.Outbound

namespace WireHttp

/-- The state of the reading. -/
inductive ReadState
  /-- No request has begun. -/
  | idle
  | readingHeaders
  | readingBody (remaining : Nat)
  /-- The request is complete; its end is reported by the next poll if it
  has not been. -/
  | messageComplete (endEmitted : Bool)
  /-- Nothing more is read; whatever arrives is dropped. -/
  | closing
  deriving DecidableEq, Repr

/-- The framing state of one connection, register by register. -/
structure Registers where
  limits : Limits
  /-- Bytes received and not yet taken up by an event. -/
  buffer : Bytes := []
  state : ReadState := .idle
  /-- The connection cannot be used for another request. -/
  mustClose : Bool := false
  /-- The peer has closed its writing side. -/
  eof : Bool := false
  /-- How far the end of a head has been searched for. -/
  scanned : Nat := 0
  /-- What is kept of the request that is arriving. -/
  current : Option Exchange := none
  /-- Requests that have been received and not answered, oldest first. -/
  owed : List Exchange := []
  outbound : Outbound := .idle
  deriving DecidableEq, Repr

namespace Registers

/-- A new connection. -/
def start (limits : Limits) : Registers := { limits }

/-- Whether more bytes can still lead to an event. -/
def wantsRead (r : Registers) : Bool :=
  r.state != .closing && !r.eof

/-- Whether nothing more may be written. -/
def isWriteClosed (r : Registers) : Bool :=
  r.outbound == .closed

/-- Reading is over, and what has not been read is dropped. -/
def enterClosing (r : Registers) : Registers :=
  { r with state := .closing, mustClose := true, buffer := [] }

-- ============================================================ receiving

/-- Takes up bytes from the peer. -/
def receive (r : Registers) (data : Bytes) : Registers :=
  if r.state = .closing then r else { r with buffer := r.buffer ++ data }

/-- Takes note that the peer has closed its writing side. -/
def receiveEof (r : Registers) : Registers :=
  { r with eof := true }

/-- What a round of a poll comes to. -/
inductive Round
  /-- The poll is over, with this event if with any. -/
  | over (event : Option Event)
  | again
  deriving DecidableEq, Repr

/-- The buffer is used up: that is the end if no more bytes can come. -/
def starve (r : Registers) : Round × Registers :=
  if r.eof then (.over (some .peerClosed), { r with current := none }.enterClosing)
  else (.over none, r)

/-- A head of `consumed` bytes has been read. -/
def acceptHead (r : Registers) (head : Head) (consumed : Nat) : Registers :=
  { r with
    buffer := r.buffer.drop consumed
    mustClose := r.mustClose || !head.keepAlive
    current := some (.ofHead head)
    state :=
      if head.contentLength = 0 then .messageComplete false
      else .readingBody head.contentLength }

/-- A head has been refused: the peer is owed an answer that says so, and
nothing more is read. -/
def rejectHead (r : Registers) : Registers :=
  { r.enterClosing with owed := r.owed ++ [.rejected] }

/-- What is kept of a request is owed an answer; if nothing is kept, none
is owed. -/
def owe (r : Registers) : Registers :=
  match r.current with
  | some exchange => { r with current := none, owed := r.owed ++ [exchange] }
  | none => r

/-- A round between two requests. -/
def roundIdle (r : Registers) : Round × Registers :=
  let r : Registers := { r with buffer := Machine.skipBlankLines r.buffer }
  if r.buffer = [] ∨ r.buffer = [13] then r.starve
  else (.again, { r with state := .readingHeaders, scanned := 0 })

/-- A round within a head. A delimiter may begin in the last three bytes
that have been searched. -/
def roundHead (r : Registers) : Round × Registers :=
  if (Delimiter.find? r.buffer (r.scanned - 3)).isNone && r.buffer.length ≤ r.limits.maxHead then
    { r with scanned := r.buffer.length }.starve
  else
    match Head.read r.limits r.buffer with
    | .ok (head, consumed) => (.over (some (.head head)), r.acceptHead head consumed)
    | .error .incomplete => (.over none, r)
    | .error e => (.over (some (.rejected e)), r.rejectHead)

/-- A round within a body. -/
def roundBody (r : Registers) (remaining : Nat) : Round × Registers :=
  if r.buffer = [] then r.starve
  else
    let data := r.buffer.take remaining
    let left := remaining - data.length
    (.over (some (.chunk data)),
      { r with
        buffer := r.buffer.drop remaining
        state := if left = 0 then .messageComplete false else .readingBody left })

/-- One round of a poll. -/
def round (r : Registers) : Round × Registers :=
  match r.state with
  | .closing => (.over none, r)
  | .idle => r.roundIdle
  | .readingHeaders => r.roundHead
  | .readingBody remaining => r.roundBody remaining
  | .messageComplete false =>
    (.over (some .messageEnd), { r with state := .messageComplete true }.owe)
  | .messageComplete true =>
    (.again, if r.mustClose then r.enterClosing else { r with state := .idle })

/-- How many rounds may be gone in vain. -/
def rank (r : Registers) : Nat :=
  match r.state with
  | .messageComplete true => 2
  | .idle => 1
  | .readingHeaders | .readingBody _ | .messageComplete false | .closing => 0

theorem starve_ne_again (r r' : Registers) : r.starve ≠ (.again, r') := by
  unfold starve
  split
  · nofun
  · nofun

/-- A round in vain is a step down. -/
theorem rank_round_lt {r r' : Registers} (h : r.round = (.again, r')) : r'.rank < r.rank := by
  unfold round at h
  split at h
  · cases h
  · next hs =>
    unfold roundIdle at h
    dsimp only at h
    split at h
    · exact absurd h (starve_ne_again _ _)
    · cases h
      simp [rank, hs]
  · unfold roundHead at h
    split at h
    · exact absurd h (starve_ne_again _ _)
    · split at h <;> cases h
  · unfold roundBody at h
    split at h
    · exact absurd h (starve_ne_again _ _)
    · cases h
  · cases h
  · next hs =>
    cases h
    split
    · simp [rank, hs, enterClosing]
    · simp [rank, hs]

/-- The next event, if the buffered bytes lead to one. -/
def poll (r : Registers) : Option Event × Registers :=
  match h : r.round with
  | (.over event, r') => (event, r')
  | (.again, r') =>
    have : r'.rank < r.rank := rank_round_lt h
    r'.poll
termination_by r.rank

theorem poll_of_over {r r' : Registers} {e : Option Event} (h : r.round = (.over e, r')) :
    r.poll = (e, r') := by
  rw [poll]
  split
  · next h' =>
    cases h.symm.trans h'
    rfl
  · next h' => cases h.symm.trans h'

theorem poll_of_again {r r' : Registers} (h : r.round = (.again, r')) : r.poll = r'.poll := by
  rw [poll]
  split
  · next h' => cases h.symm.trans h'
  · next h' =>
    cases h.symm.trans h'
    rfl

-- ============================================================== sending

/-- A response has broken the framing. -/
def failOutbound (r : Registers) : Registers :=
  { r.enterClosing with outbound := .closed }

/-- Starts the response to the oldest owed request, whose body will be
`length` bytes long, and gives its head. -/
def startResponse (r : Registers) (status : Status) (headers : Headers) (length : Nat) :
    Except Violation Bytes × Registers :=
  match r.outbound, r.owed with
  | .closed, _ => (.error .closed, r)
  | .sending .., _ => (.error .responseInProgress, r)
  | .idle, [] => (.error .noPendingRequest, r)
  | .idle, exchange :: owed =>
    match headFault? status headers length with
    | some fault => (.error fault, r.failOutbound)
    | none =>
      let last := r.state == .closing && r.owed.length == 1
      let close := last || !exchange.keepAlive || headers.asksClose
      (.ok (renderHead status (outboundHeaders status headers length close exchange.http10)),
        { r with
          owed
          mustClose := r.mustClose || close
          outbound := .sending length 0 exchange.headOnly close })

/-- Accounts for a piece of the response's body and gives the bytes of it
that go on the wire. The sum is exact for as long as it is below 2^64. -/
def sendBody (r : Registers) (data : Bytes) : Except Violation Bytes × Registers :=
  match r.outbound with
  | .sending declared written suppress close =>
    let attempted := written + data.length
    if declared < attempted then (.error (.bodyOverrun declared attempted), r.failOutbound)
    else
      (.ok (if suppress then [] else data),
        { r with outbound := .sending declared attempted suppress close })
  | .idle | .closed => (.error .noResponseInProgress, r)

/-- Completes the response. -/
def finishResponse (r : Registers) : Except Violation Unit × Registers :=
  match r.outbound with
  | .sending declared written _ close =>
    if written ≠ declared then (.error (.lengthMismatch declared written), r.failOutbound)
    else if close then (.ok (), { r with outbound := .closed }.enterClosing)
    else (.ok (), { r with outbound := .idle })
  | .idle | .closed => (.error .noResponseInProgress, r)

/-- Starts, fills and completes a response, and gives its bytes. -/
def sendResponse (r : Registers) (response : Response) : Except Violation Bytes × Registers :=
  match r.startResponse response.status response.headers response.body.length with
  | (.error fault, r) => (.error fault, r)
  | (.ok head, r) =>
    match r.sendBody response.body with
    | (.error fault, r) => (.error fault, r)
    | (.ok body, r) =>
      match r.finishResponse with
      | (.error fault, r) => (.error fault, r)
      | (.ok (), r) => (.ok (head ++ body), r)

end Registers

end WireHttp
