/-
The receiving half of the machine. A poll turns the front of the buffer
into one event, or into none if nothing can be said before more bytes
arrive. Blank lines between requests are skipped, but a carriage return
with nothing after it is kept, for its line feed may be under way.
-/
import WireHttp.Head.Reader
import WireHttp.Machine.Basic

namespace WireHttp.Machine

/-- Takes up bytes from the peer. -/
def receive (m : Machine) (data : Bytes) : Machine :=
  if m.phase = .closing then m else { m with buffer := m.buffer ++ data }

/-- Takes note that the peer has closed its writing side. -/
def receiveEof (m : Machine) : Machine :=
  { m with eof := true }

/-- The bytes after any blank lines at the front. -/
def skipBlankLines : Bytes → Bytes
  | 13 :: 10 :: bs => skipBlankLines bs
  | bs => bs

-- ======================================================= one poll

/-- The buffer is used up: that is the end if no more bytes can come. -/
def starve (m : Machine) : Option Event × Machine :=
  if m.eof then (some .peerClosed, m.enterClosing) else (none, m)

/-- The machine once a head of `consumed` bytes has been read. -/
def acceptHead (m : Machine) (head : Head) (consumed : Nat) : Machine :=
  { m with
    buffer := m.buffer.drop consumed
    mustClose := m.mustClose || !head.keepAlive
    phase :=
      if head.contentLength = 0 then .complete (.ofHead head)
      else .readingBody (.ofHead head) head.contentLength }

/-- The machine once a head has been refused: the peer is owed an answer
that says so, and nothing more is read. -/
def rejectHead (m : Machine) : Machine :=
  { m.enterClosing with owed := m.owed ++ [.rejected] }

/-- Polls for a head, the first `scanned` bytes having been searched. A
delimiter may begin in the last three of them. -/
def pollHead (m : Machine) (scanned : Nat) : Option Event × Machine :=
  if (Delimiter.find? m.buffer (scanned - 3)).isNone && m.buffer.length ≤ m.limits.maxHead then
    { m with phase := .readingHead m.buffer.length }.starve
  else
    match Head.read m.limits m.buffer with
    | .ok (head, consumed) => (some (.head head), m.acceptHead head consumed)
    | .error .incomplete => (none, { m with phase := .readingHead scanned })
    | .error e => (some (.rejected e), m.rejectHead)

/-- Polls between two requests. -/
def pollIdle (m : Machine) : Option Event × Machine :=
  let m := { m with phase := .idle, buffer := skipBlankLines m.buffer }
  if m.buffer = [] ∨ m.buffer = [13] then m.starve else m.pollHead 0

/-- Polls for body bytes: all that are there, up to the end of the body. -/
def pollBody (m : Machine) (exchange : Exchange) (remaining : Nat) : Option Event × Machine :=
  if m.buffer = [] then m.starve
  else
    let data := m.buffer.take remaining
    let left := remaining - data.length
    (some (.chunk data),
      { m with
        buffer := m.buffer.drop remaining
        phase := if left = 0 then .complete exchange else .readingBody exchange left })

/-- The next event, if the buffered bytes lead to one. -/
def poll (m : Machine) : Option Event × Machine :=
  match m.phase with
  | .idle => m.pollIdle
  | .readingHead scanned => m.pollHead scanned
  | .readingBody exchange remaining => m.pollBody exchange remaining
  | .complete exchange =>
    (some .messageEnd, { m with phase := .ended, owed := m.owed ++ [exchange] })
  | .ended => if m.mustClose then (none, m.enterClosing) else m.pollIdle
  | .closing => (none, m)

end WireHttp.Machine
