/-
A connection played through by a script. The transport does what the
script says, requests are answered as planned after a delay, and the
clock moves only when the script lets time pass. Between two cues the
connection is moved on until nothing more can happen at that instant:
answers that are due come first, then what has arrived, then the timer.
Every move is a `Connection.step`.
-/
import WireHttp.Connection.Step

namespace WireHttp

/-- How a request is answered, and how many milliseconds after it was
handed over. -/
structure Plan where
  outcome : Outcome
  delay : Nat := 0
  deriving DecidableEq, Repr

-- ======================================================== transport

/-- What a read finds. -/
inductive Arrival
  | bytes (data : Bytes)
  | ended
  | fault (message : String)
  deriving DecidableEq, Repr

/-- A bound on the reads that it takes to find all of it. -/
def Arrival.maxReads : Arrival → Nat
  | bytes data => data.length
  | ended | fault _ => 1

/-- A transport that does as it is told. -/
structure Transport where
  /-- What has arrived and has not been read, in order. -/
  arrivals : List Arrival := []
  /-- How many more bytes it takes before it blocks. -/
  window : Option Nat := none
  /-- How many bytes it takes in one write. -/
  maxWrite : Option Nat := none
  /-- What it answers to every write, once writing is out of order. -/
  writeFault : Option WriteReply := none
  deriving DecidableEq, Repr

namespace Transport

/-- What the transport does if it is offered bytes now; `none` if it
blocks. -/
def reply? (t : Transport) (offered : Bytes) : Option WriteReply :=
  match t.writeFault, t.window with
  | some reply, _ => some reply
  | none, some 0 => none
  | none, window =>
    match (window.toList ++ t.maxWrite.toList).min? with
    | some most => some (.accept most)
    | none => some (.accept offered.length)

/-- What a read of at most `size` bytes finds, and the transport after
it. Bytes that arrived separately are read separately. -/
def read? (t : Transport) (size : Nat) : Option (Stimulus × Transport) :=
  match t.arrivals with
  | [] => none
  | .bytes data :: rest =>
    let left := data.drop size
    some (.read (data.take size),
      { t with arrivals := if left.isEmpty then rest else .bytes left :: rest })
  | .ended :: rest => some (.readEnd, { t with arrivals := rest })
  | .fault message :: rest => some (.readFault message, { t with arrivals := rest })

/-- The transport after it has taken `size` bytes. -/
def afterTaking (t : Transport) (size : Nat) : Transport :=
  { t with window := t.window.map (· - size) }

/-- A bound on the reads that empty the transport. -/
def backlog (t : Transport) : Nat :=
  t.arrivals.foldl (fun n arrival => n + arrival.maxReads) 0

end Transport

-- ======================================================== rehearsal

/-- When a request that was handed over comes back, and with what. -/
structure Due where
  instant : Nat
  outcome : Outcome
  deriving DecidableEq, Repr

/-- A connection on stage. -/
structure Rehearsal where
  connection : Connection
  transport : Transport
  plan : Request → Plan
  /-- Of the unanswered requests those that were handed over, oldest
  first. -/
  due : List Due := []
  /-- What the connection has done since the last report, latest first. -/
  done : List Effect := []

namespace Rehearsal

/-- The rehearsal of a new connection. -/
def start (settings : Settings) (transport : Transport) (plan : Request → Plan) : Rehearsal where
  connection := .start settings
  transport := transport
  plan := plan

-- ------------------------------------------------------- one move

/-- Takes note of what the connection has done. -/
def record (r : Rehearsal) (e : Effect) : Rehearsal :=
  let r := { r with done := e :: r.done }
  match e with
  | .called request =>
    let plan := r.plan request
    let instant := r.connection.settings.clock.due r.connection.now plan.delay
    { r with due := r.due ++ [⟨instant, plan.outcome⟩] }
  | .wrote data => { r with transport := r.transport.afterTaking data.length }

/-- Makes the connection attend to a stimulus. -/
def move (r : Rehearsal) (s : Stimulus) : Rehearsal :=
  match r.connection.step s with
  | none => r
  | some (connection, effects) => effects.foldl record { r with connection }

/-- The place of an unanswered request that is due, and its outcome. -/
def comingBack? (r : Rehearsal) : Option (Nat × Outcome) :=
  let isDue : Job × Due → Bool := fun (job, due) =>
    job.state == .called && due.instant ≤ r.connection.now
  let called := r.connection.jobs.zip r.due
  (called.findIdx? isDue).bind fun place => called[place]?.map fun (_, due) => (place, due.outcome)

/-- The next move of a connection that waits, if there is one at this
instant. -/
def advanceWaiting? (r : Rehearsal) : Option Rehearsal :=
  let c := r.connection
  if let some (place, outcome) := r.comingBack? then some (r.move (.finish place outcome))
  else if c.hasAnswer then some { r.move .answer with due := r.due.tail }
  else if c.jobs.any (·.state == .queued) then some (r.move .call)
  else
    match if c.canRead then r.transport.read? c.settings.readSize else none with
    | some (stimulus, transport) => some ({ r with transport }.move stimulus)
    | none => if (c.timer.fire? c.now).isSome then some (r.move .timer) else none

/-- Writes until `size` bytes are taken, the transport blocks, or a
write fails. -/
def write (r : Rehearsal) : Nat → Rehearsal
  | 0 => r
  | size + 1 =>
    match r.connection.stage with
    | .writing writer _ =>
      match r.transport.reply? writer.pending with
      | some reply => (r.move (.write reply)).write size
      | none => r
    | .waiting | .over _ | .unwound => r

/-- Moves on, `steps` times at most, while something can happen at this
instant. -/
def settleWithin (r : Rehearsal) : Nat → Rehearsal
  | 0 => r
  | steps + 1 =>
    match r.connection.stage with
    | .over _ | .unwound => r
    | .writing writer _ =>
      if (r.transport.reply? writer.pending).isSome then
        (r.write writer.remaining).settleWithin steps
      else r
    | .waiting =>
      match r.advanceWaiting? with
      | some r => r.settleWithin steps
      | none => r

/-- More moves than can happen while nothing new arrives: four for each
request there can be, and one for each read. -/
def budget (r : Rehearsal) : Nat :=
  5 * (r.connection.jobs.length + r.connection.machine.buffer.length + r.transport.backlog) + 16

/-- Moves on until nothing more can happen at this instant. -/
def settle (r : Rehearsal) : Rehearsal :=
  r.settleWithin r.budget

-- ----------------------------------------------------------- time

/-- The next instant at which something is due. While a response is
being written nothing is attended to, so nothing is due. -/
def nextDue? (r : Rehearsal) : Option Nat :=
  match r.connection.stage with
  | .waiting =>
    let called := (r.connection.jobs.zip r.due).filter (·.1.state == .called)
    (r.connection.timer.deadline?.toList ++ called.map (·.2.instant)).min?
  | .writing _ _ | .over _ | .unwound => none

/-- Lets the clock go on to an instant. -/
def tickTo (r : Rehearsal) (instant : Nat) : Rehearsal :=
  r.move (.tick (instant - r.connection.now))

/-- Lets time pass up to an instant, with `stops` stops at most. What is
due on the way happens at its own time. -/
def advanceWithin (r : Rehearsal) (target : Nat) : Nat → Rehearsal
  | 0 => r.tickTo target
  | stops + 1 =>
    match r.nextDue? with
    | some instant =>
      if instant ≤ target then (r.tickTo instant).settle.advanceWithin target stops
      else r.tickTo target
    | none => r.tickTo target

-- --------------------------------------------------------- script

/-- What a script can have happen. -/
inductive Cue
  /-- Something arrives at the transport. -/
  | arrive (arrival : Arrival)
  /-- From now on every write is answered in this way. -/
  | breakWriting (reply : WriteReply)
  /-- The transport takes this many bytes more. -/
  | widen (size : Nat)
  /-- This many milliseconds pass. -/
  | advance (milliseconds : Nat)
  deriving DecidableEq, Repr

/-- Lets a cue happen. Nothing arrives with no bytes. -/
def perform (r : Rehearsal) : Cue → Rehearsal
  | .arrive (.bytes []) => r
  | .arrive arrival =>
    { r with transport := { r.transport with arrivals := r.transport.arrivals ++ [arrival] } }
  | .breakWriting reply => { r with transport := { r.transport with writeFault := some reply } }
  | .widen size =>
    { r with transport := { r.transport with window := r.transport.window.map (· + size) } }
  | .advance ms => r.advanceWithin (r.connection.now + ms) r.budget

/-- What can be seen of a connection between two cues. -/
structure Report where
  now : Nat
  written : Bytes
  called : List Request
  /-- How the connection ended, if it has. -/
  ending? : Option Ending
  deriving DecidableEq, Repr

/-- What has happened since the last report. -/
def report (r : Rehearsal) : Report where
  now := r.connection.now
  written := (r.done.reverse.map fun
    | .wrote data => data
    | .called _ => []).flatten
  called := r.done.reverse.filterMap fun
    | .called request => some request
    | .wrote _ => none
  ending? :=
    match r.connection.stage with
    | .over ending => some ending
    | .waiting | .writing _ _ | .unwound => none

/-- Plays a script: a report at the start and one after each cue, up to
the one after which the connection is over. -/
def play (r : Rehearsal) (cues : List Cue) : List Report :=
  let r := r.settle
  match r.connection.stage, cues with
  | .over _, _ | _, [] => [r.report]
  | _, cue :: rest => r.report :: ({ r with done := [] }.perform cue).play rest

end Rehearsal

end WireHttp
