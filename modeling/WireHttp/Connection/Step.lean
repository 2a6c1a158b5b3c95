/-
How a connection moves. Whatever can happen to a connection is a
`Stimulus`, and `step` says what it does about one, if it attends to it
at all; the order in which stimuli come is left open. So a statement
about every list of stimuli is one about every fragmentation of the
input, every order in which answers are ready, every pattern of partial
writes and every course of the clock.
-/
import WireHttp.Connection.Basic
import WireHttp.Machine.Drain
import WireHttp.Machine.Outbound

namespace WireHttp

/-- Something that happens to a connection. -/
inductive Stimulus
  /-- A read brings these bytes, at least one. -/
  | read (data : Bytes)
  /-- A read finds that the peer has closed its writing side. -/
  | readEnd
  | readFault (message : String)
  /-- The oldest request that is still queued is handed over, which waits
  while there is an answer to be written. -/
  | call
  /-- It is handed over likewise, and the call panics before there is
  anything to wait for. No one catches that panic, unlike one that comes
  while the answer is awaited, which is an `Outcome`. -/
  | callPanics
  /-- The request at this place among the unanswered comes back. -/
  | finish (place : Nat) (outcome : Outcome)
  /-- The oldest unanswered request has come back and is answered. -/
  | answer
  /-- The idle timer fires. -/
  | timer
  /-- The transport is offered what is pending. -/
  | write (reply : WriteReply)
  /-- Time passes. -/
  | tick (milliseconds : Nat)
  deriving DecidableEq, Repr

/-- Something that a connection does to the world. -/
inductive Effect
  /-- A request is handed over to be answered. -/
  | called (request : Request)
  /-- Bytes are taken by the transport. -/
  | wrote (data : Bytes)
  deriving DecidableEq, Repr

namespace Connection

-- ==================================================== common moves

/-- The connection ends; what is unanswered stays so. -/
def endWith (c : Connection) (ending : Ending) : Connection :=
  { c with stage := .over ending, timer := c.timer.cancel, jobs := [], assembly := none }

/-- Starts the idle timer. -/
def arm (c : Connection) : Connection :=
  { c with timer := c.timer.arm c.now c.settings.idleTimeout c.settings.clock }

/-- Starts the idle timer if the connection is idle. -/
def armIfIdle (c : Connection) : Connection :=
  if c.isIdle then c.arm else c

/-- Begins to write a response. -/
def beginWrite (c : Connection) (r : Response) (next : AfterWrite) : Connection :=
  match c.machine.sendResponse r with
  | (.ok bytes, machine) => { c with machine, stage := .writing (.ofBytes bytes) next }
  | (.error v, machine) => { c with machine }.endWith (next.onFailure (.framing v))

/-- How a connection ends that was neither idle nor at fault. -/
def lastEnding (c : Connection) : Ending :=
  .closed (if c.peerClosed then .peerClosed else .completed)

/-- Goes back to waiting, if there is anything to wait for. With every
request answered, a refused one is told so, and a connection that reads
no more is over. -/
def proceed (c : Connection) : Connection :=
  if c.isSettled then
    match c.refused with
    | some e =>
      { c with refused := none }.beginWrite (.ofStatus e.status)
        (.endAnyway (.closed (.badRequest e)))
    | none => if c.machine.wantsRead then { c with stage := .waiting } else c.endWith c.lastEnding
  else { c with stage := .waiting }

-- ========================================================= reading

/-- Takes note of one event. -/
def observe (c : Connection) : Event → Connection
  | .head head => { c with assembly := some { head } }
  | .chunk data =>
    { c with assembly := c.assembly.map (·.add data) }
  | .messageEnd =>
    match c.assembly with
    | some a => { c with assembly := none, jobs := c.jobs ++ [{ request := a.request }] }
    | none => c
  | .peerClosed => { c with peerClosed := true }
  | .rejected e => { c with assembly := none, refused := some e }

/-- Takes note of every event that the received bytes lead to. -/
def drain (c : Connection) : Connection :=
  let (events, machine) := c.machine.drain
  events.foldl observe { c with machine }

/-- Bytes have been read. They end any idleness, but blank lines alone
leave the connection idle. -/
def afterRead (c : Connection) (data : Bytes) : Connection :=
  { c with timer := c.timer.cancel, machine := c.machine.receive data }.drain.armIfIdle.proceed

/-- The peer has closed its writing side. -/
def afterReadEnd (c : Connection) : Connection :=
  if c.machine.hasPartialMessage then c.endWith (.failed .truncated)
  else { c with machine := c.machine.receiveEof }.drain.proceed

-- ======================================================= answering

/-- The unanswered requests with the first queued one handed over. -/
def callFirst : List Job → Option (Request × List Job)
  | [] => none
  | job :: jobs =>
    if job.state = .queued then some (job.request, { job with state := .called } :: jobs)
    else (callFirst jobs).map fun (request, rest) => (request, job :: rest)

/-- The unanswered requests with the one at a place come back, if it has
been handed over. -/
def finishAt (jobs : List Job) (place : Nat) (outcome : Outcome) : Option (List Job) :=
  match jobs[place]? with
  | some job =>
    if job.state = .called then some (jobs.set place { job with state := .finished outcome })
    else none
  | none => none

/-- Whether the oldest unanswered request has come back. -/
def hasAnswer (c : Connection) : Bool :=
  match c.jobs with
  | ⟨_, .finished _⟩ :: _ => true
  | _ => false

/-- Begins to write what an outcome calls for. A failure is answered and
ends the connection. -/
def respond (c : Connection) : Outcome → Connection
  | .answered r => c.beginWrite r .carryOn
  | .failed (.respond r) => c.beginWrite r.withClose (.endWith (.closed .dispatcherError))
  | .failed (.fault f) =>
    c.beginWrite Response.internalError.withClose (.endWith (.failed (.dispatcher f.chain)))
  | .panicked message =>
    c.beginWrite Response.internalError.withClose
      (.endWith (.failed (.dispatcher (panicText message))))

-- ========================================================= writing

/-- A response has been written in full. -/
def afterWrite (c : Connection) : AfterWrite → Connection
  | .carryOn =>
    if c.machine.isWriteClosed then c.endWith c.lastEnding else c.armIfIdle.proceed
  | .endWith ending | .endAnyway ending => c.endWith ending

/-- The transport answers to what it was offered. With the last byte taken
the response has been written. That the transport is then flushed is left
out, and taken to succeed at once, for a flush takes no byte: one that
fails would end the connection by a fault of the transport with the whole
response on the wire, and one that blocks would hold up what follows. -/
def offer (c : Connection) (writer : Writer) (next : AfterWrite) (reply : WriteReply) :
    Connection × List Effect :=
  match writer.offer reply with
  | .error e => (c.endWith (next.onFailure (.transport e.message)), [])
  | .ok (taken, rest) =>
    (if rest.isDone then c.afterWrite next else { c with stage := .writing rest next },
      [.wrote taken])

-- ======================================================== one step

/-- A new connection; its idle timer runs from the start. -/
def start (settings : Settings) : Connection :=
  Connection.proceed <| Connection.arm
    { settings, machine := .start settings.limits, timer := {} }

/-- What the connection does while it waits. -/
def stepWaiting (c : Connection) : Stimulus → Option (Connection × List Effect)
  | .read data => if c.canRead ∧ data ≠ [] then some (c.afterRead data, []) else none
  | .readEnd => if c.canRead then some (c.afterReadEnd, []) else none
  | .readFault message =>
    if c.canRead then some (c.endWith (.failed (.transport message)), []) else none
  | .call =>
    if c.hasAnswer then none
    else (callFirst c.jobs).map fun (request, jobs) => ({ c with jobs }, [.called request])
  | .callPanics =>
    if c.hasAnswer then none
    else (callFirst c.jobs).map fun (request, jobs) =>
      ({ c with jobs, stage := .unwound }, [.called request])
  | .finish place outcome =>
    (finishAt c.jobs place outcome).map fun jobs => ({ c with jobs }, [])
  | .answer =>
    match c.jobs with
    | ⟨_, .finished outcome⟩ :: jobs => some ({ c with jobs }.respond outcome, [])
    | _ => none
  | .timer =>
    (c.timer.fire? c.now).map fun (_, timer) =>
      (if c.isIdle then { c with timer }.endWith (.closed .idleTimeout)
        else { c with timer }.proceed, [])
  | .tick ms => some ({ c with now := c.now + ms }, [])
  | .write _ => none

/-- What the connection does about a stimulus, and what comes of it;
`none` if it does not attend to it. -/
def step (c : Connection) (s : Stimulus) : Option (Connection × List Effect) :=
  match c.stage, s with
  | .waiting, s => c.stepWaiting s
  | .writing writer next, .write reply => some (c.offer writer next reply)
  | .writing _ _, .tick ms => some ({ c with now := c.now + ms }, [])
  | .writing _ _, _ => none
  | .over _, _ | .unwound, _ => none

/-- What the connection does about stimuli that come one after the
other, and all that comes of it. -/
def run (c : Connection) : List Stimulus → Option (Connection × List Effect)
  | [] => some (c, [])
  | s :: rest => do
    let (c, first) ← c.step s
    let (c, later) ← c.run rest
    return (c, first ++ later)

end Connection

end WireHttp
