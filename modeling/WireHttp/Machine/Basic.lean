/-
The state of one server connection's framing, with no input or output of
its own. Received bytes wait in a buffer and leave it as events; answers
come back as bytes for the transport.

    idle ──bytes──▶ readingHead ──head──▶ readingBody ──whole body──┐
     ▲                   │                (if it has a body)        ▼
     │               malformed                                  complete
     │                   ▼                                          │
     │                closing ◀──must close── ended ◀──end reported─┘
     └──────────────────keep alive──────────────┘
-/
import WireHttp.Bytes
import WireHttp.Head.Basic
import WireHttp.Limits

namespace WireHttp

/-- What the framing of an answer has to know of its request. -/
structure Exchange where
  /-- The request was a `HEAD`, so the answer's body stays off the wire. -/
  headOnly : Bool
  /-- The connection may be used again after the answer. -/
  keepAlive : Bool
  /-- The peer closes unless it is told that the connection is kept. -/
  http10 : Bool
  deriving DecidableEq, Repr

/-- What is kept of a request for its answer. -/
def Exchange.ofHead (head : Head) : Exchange where
  headOnly := head.method == .head
  keepAlive := head.keepAlive
  http10 := head.version == .http10

/-- What is kept of a rejected request: it is answered in full, and the
connection ends with that answer. -/
def Exchange.rejected : Exchange where
  headOnly := false
  keepAlive := false
  http10 := false

/-- How far the request now arriving has been read. -/
inductive Phase
  /-- No request has begun. -/
  | idle
  /-- A head is arriving; the first `scanned` bytes of the buffer have
  been searched for its end. -/
  | readingHead (scanned : Nat)
  /-- A body is arriving, and `remaining` bytes of it are still to come. -/
  | readingBody (exchange : Exchange) (remaining : Nat)
  /-- The request is complete and its end has not been reported. -/
  | complete (exchange : Exchange)
  /-- The end of the request has been reported. -/
  | ended
  /-- Nothing more is read; whatever arrives is dropped. -/
  | closing
  deriving DecidableEq, Repr

/-- What is being written. -/
inductive Outbound
  | idle
  /-- An answer of `declared` body bytes has begun and `written` of them
  have been accounted for. Both are counted in 64-bit words: `declared` is
  below 2^64, and so is `written`, which never exceeds it. -/
  | sending (declared written : Nat) (suppress closeAfter : Bool)
  /-- The last answer has gone out; nothing may follow it. -/
  | closed
  deriving DecidableEq, Repr

/-- The framing state of one connection. -/
structure Machine where
  limits : Limits
  /-- Bytes received and not yet taken up by an event. -/
  buffer : Bytes := []
  phase : Phase := .idle
  /-- The connection cannot be used for another request. -/
  mustClose : Bool := false
  /-- The peer has closed its writing side. -/
  eof : Bool := false
  /-- Requests that have been received and not answered, oldest first. -/
  owed : List Exchange := []
  outbound : Outbound := .idle
  deriving DecidableEq, Repr

/-- What the bytes of a connection amount to. -/
inductive Event
  | head (head : Head)
  /-- Some of the current request's body. -/
  | chunk (data : Bytes)
  /-- The current request is complete. -/
  | messageEnd
  /-- The peer has closed its writing side. -/
  | peerClosed
  | rejected (error : HeadError)
  deriving DecidableEq, Repr

namespace Machine

/-- A new connection. -/
def start (limits : Limits) : Machine := { limits }

/-- Whether more bytes can still lead to an event. -/
def wantsRead (m : Machine) : Bool :=
  m.phase != .closing && !m.eof

/-- Whether nothing more may be written. -/
def isWriteClosed (m : Machine) : Bool :=
  m.outbound == .closed

/-- Whether bytes have arrived of a request that is not yet complete. -/
def hasPartialMessage (m : Machine) : Bool :=
  match m.phase with
  | .readingHead _ | .readingBody _ _ => true
  | .idle => m.buffer.any fun b => b != 13 && b != 10
  | .complete _ | .ended | .closing => false

/-- Whether no message is under way in either direction. -/
def isIdle (m : Machine) : Bool :=
  m.phase == .idle && !m.hasPartialMessage && m.owed.isEmpty && m.outbound == .idle

theorem isIdle_iff {m : Machine} :
    m.isIdle = true ↔
      m.phase = .idle ∧ m.hasPartialMessage = false ∧ m.owed = [] ∧ m.outbound = .idle := by
  unfold isIdle
  simp only [Bool.and_eq_true, beq_iff_eq, Bool.not_eq_true', List.isEmpty_iff, and_assoc]

/-- Reading is over, and what has not been read is dropped. -/
def enterClosing (m : Machine) : Machine :=
  { m with phase := .closing, mustClose := true, buffer := [] }

end Machine

end WireHttp
