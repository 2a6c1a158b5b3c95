/-
Flushing one serialized response. The transport may take fewer bytes
than it is offered, or fail; what it has not taken stays pending, so a
write that stopped is taken up at the very byte where it stopped. A flush
ends here with the last byte taken: that the transport is then asked to
pass on what it has is left out, and taken to succeed.
-/
import WireHttp.Bytes

namespace WireHttp

/-- What the transport does with the bytes it is offered. -/
inductive WriteReply
  /-- It takes at most this many of them. -/
  | accept (limit : Nat)
  | fail (message : String)
  deriving DecidableEq, Repr

/-- Why a flush stopped before its end. -/
inductive WriteError
  /-- The transport took none of the bytes it was offered. -/
  | tookNone
  | failed (message : String)
  deriving DecidableEq, Repr

/-- The text of a `WriteError`. -/
def WriteError.message : WriteError → String
  | tookNone => "write zero"
  | failed message => message

/-- A response on its way out. -/
structure Writer where
  /-- The bytes that the transport has not yet taken. -/
  pending : Bytes
  deriving DecidableEq, Repr

namespace Writer

/-- A writer of which nothing has been taken. -/
def ofBytes (bytes : Bytes) : Writer := ⟨bytes⟩

/-- Number of bytes still to be taken. -/
def remaining (w : Writer) : Nat := w.pending.length

/-- Whether every byte has been taken. -/
def isDone (w : Writer) : Bool := w.pending.isEmpty

/-- One write of a writer that is not done: the bytes taken and the
writer that is left, or an error and the writer as it was. -/
def offer (w : Writer) : WriteReply → Except WriteError (Bytes × Writer)
  | .accept 0 => .error .tookNone
  | .accept (n + 1) => .ok (w.pending.take (n + 1), ⟨w.pending.drop (n + 1)⟩)
  | .fail message => .error (.failed message)

/-- What a flush came to. -/
structure Flush where
  result : Except WriteError Unit
  /-- The bytes taken during the flush. -/
  taken : Bytes
  /-- The writer as the flush left it. -/
  writer : Writer
  /-- How many writes were made. -/
  writes : Nat
  /-- The replies that the flush did not call for. -/
  unused : List WriteReply

/-- Writes until the writer is done or a write fails. A transport whose
replies have run out takes everything. -/
def flush (w : Writer) : List WriteReply → Flush
  | [] => ⟨.ok (), w.pending, ⟨[]⟩, if w.isDone then 0 else 1, []⟩
  | reply :: replies =>
    if w.isDone then ⟨.ok (), [], w, 0, reply :: replies⟩
    else
      match w.offer reply with
      | .error e => ⟨.error e, [], w, 1, replies⟩
      | .ok (taken, rest) =>
        let later := rest.flush replies
        { later with taken := taken ++ later.taken, writes := later.writes + 1 }

end Writer

end WireHttp
