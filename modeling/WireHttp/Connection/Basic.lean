/-
The state of a connection that is being served: its framing, its idle
timer, the requests that have been handed over and not yet answered, and
what it is doing right now.
-/
import WireHttp.Dispatch
import WireHttp.IdleTimer
import WireHttp.Machine.Basic
import WireHttp.Response.Violation
import WireHttp.Writer

namespace WireHttp

/-- What can be tuned for a connection, and the clock that it is served by. -/
structure Settings where
  /-- How many milliseconds an idle connection is kept open. -/
  idleTimeout : Nat := 5000
  limits : Limits := {}
  /-- How many unanswered requests stop the reading. -/
  maxPipelined : Nat := 16
  /-- The size of the buffer that is read into. -/
  readBuffer : Nat := 8192
  /-- The timers of the runtime that serves the connection. -/
  clock : Clock := .usual

/-- How many bytes one read takes at most. A buffer of no size is given
room for 64 bytes, because a read of nothing would look like an end. -/
def Settings.readSize (s : Settings) : Nat :=
  if s.readBuffer = 0 then 64 else s.readBuffer

-- ============================================================ endings

/-- Why a connection ended without a fault on this side. -/
inductive CloseReason
  /-- The last answer has gone out on a connection that could not be
  used again. -/
  | completed
  | peerClosed
  | idleTimeout
  /-- The peer sent something that is no request. -/
  | badRequest (error : HeadError)
  /-- A request was answered by a failure that brought its response. -/
  | dispatcherError
  deriving DecidableEq, Repr

/-- The fault on this side that ended a connection. -/
inductive ConnectionError
  | framing (violation : Violation)
  | transport (message : String)
  /-- The peer closed its writing side within a request. -/
  | truncated
  | dispatcher (message : String)
  deriving DecidableEq, Repr

/-- The text of a `ConnectionError`. -/
def ConnectionError.message : ConnectionError → String
  | framing v => "framing violation: " ++ v.message
  | transport m => "transport fault: " ++ m
  | truncated => "peer closed mid-message"
  | dispatcher m => "dispatcher fault: " ++ m

/-- How a connection ended. -/
inductive Ending
  | closed (reason : CloseReason)
  | failed (error : ConnectionError)
  deriving DecidableEq, Repr

-- ============================================================== state

/-- A request whose head has arrived and whose body is arriving. -/
structure Assembly where
  head : Head
  /-- The pieces of the body that have arrived, latest first. -/
  pieces : List Bytes := []
  deriving DecidableEq, Repr

namespace Assembly

/-- What has arrived of the body. -/
def body (a : Assembly) : Bytes :=
  a.pieces.reverse.flatten

/-- The assembly with one more piece of the body. -/
def add (a : Assembly) (data : Bytes) : Assembly :=
  { a with pieces := data :: a.pieces }

@[simp] theorem body_add (a : Assembly) (data : Bytes) : (a.add data).body = a.body ++ data := by
  simp [body, add]

/-- The request that an assembly has become. -/
def request (a : Assembly) : Request where
  method := a.head.method
  target := a.head.target
  version := a.head.version
  headers := a.head.headers
  body := a.body

end Assembly

/-- How far a request has come on its way to an answer. -/
inductive JobState
  | queued
  | called
  | finished (outcome : Outcome)
  deriving DecidableEq, Repr

/-- A request that is waiting to be answered. -/
structure Job where
  request : Request
  state : JobState := .queued
  deriving DecidableEq, Repr

/-- What follows once a response has been written. -/
inductive AfterWrite
  /-- The connection goes on, unless that was its last response. -/
  | carryOn
  /-- The connection ends in this way. -/
  | endWith (ending : Ending)
  /-- The connection ends in this way even if the write fails. -/
  | endAnyway (ending : Ending)
  deriving DecidableEq, Repr

/-- How the connection ends if the response cannot be written. -/
def AfterWrite.onFailure (error : ConnectionError) : AfterWrite → Ending
  | carryOn | endWith _ => .failed error
  | endAnyway ending => ending

/-- What a connection is doing. -/
inductive Stage
  /-- It waits for bytes, answers or the timer, whichever comes first. -/
  | waiting
  /-- It writes a response and attends to nothing else. -/
  | writing (writer : Writer) (next : AfterWrite)
  | over (ending : Ending)
  /-- A panic has unwound the connection: it is abandoned where it stood,
  without an ending, and attends to nothing. -/
  | unwound
  deriving DecidableEq, Repr

/-- A connection. -/
structure Connection where
  settings : Settings
  machine : Machine
  timer : IdleTimer
  /-- The current instant. -/
  now : Nat := 0
  assembly : Option Assembly := none
  /-- Unanswered requests, oldest first. -/
  jobs : List Job := []
  /-- What was wrong with the request that was refused, until the peer
  is told. -/
  refused : Option HeadError := none
  /-- The peer closed its writing side between two requests. -/
  peerClosed : Bool := false
  stage : Stage := .waiting

namespace Connection

/-- Whether no request is waiting to be answered. -/
def isSettled (c : Connection) : Bool :=
  c.jobs.isEmpty

/-- Whether bytes are read while the connection waits. -/
def canRead (c : Connection) : Bool :=
  c.machine.wantsRead && c.jobs.length < c.settings.maxPipelined

/-- Whether no message is under way and no request unanswered. -/
def isIdle (c : Connection) : Bool :=
  c.machine.isIdle && c.isSettled

end Connection

end WireHttp
