/-
Calls in any order. Whoever holds a machine may call its seven
operations as it likes, with any arguments and whether or not the moment
is right; `calls` is such a run, and what is said of every list of calls
is said of every use of the machine.

Five of the seven leave the receiving half alone, or end it. `Aside` says
so once (`call_aside`), so that an invariant of the receiving half is a
matter of three cases: bytes or the end mark arrive, a poll (which
`Polls` lists), and everything else.
-/
import Mathlib.Data.List.Induction
import WireHttp.Machine.Outbound
import WireHttp.Proofs.Machine.Inbound

namespace WireHttp

/-- A call of a machine. -/
inductive Call
  | receive (data : Bytes)
  | receiveEof
  | poll
  | startResponse (status : Status) (headers : Headers) (length : Nat)
  | sendBody (data : Bytes)
  | finishResponse
  | sendResponse (response : Response)
  deriving DecidableEq, Repr

/-- The bytes that a call brings from the peer. -/
def Call.data : Call → Bytes
  | receive data => data
  | _ => []

/-- What a call gives back. -/
inductive Answer
  | nothing
  | polled (event : Option Event)
  | sent (result : Except Violation Bytes)
  | finished (result : Except Violation Unit)

/-- The event that a call has brought. -/
def Answer.event? : Answer → Option Event
  | polled event => event
  | nothing | sent _ | finished _ => none

namespace Machine

/-- What a call gives back, and the machine after it. -/
def call (m : Machine) : Call → Answer × Machine
  | .receive data => (.nothing, m.receive data)
  | .receiveEof => (.nothing, m.receiveEof)
  | .poll => (.polled m.poll.1, m.poll.2)
  | .startResponse status headers length =>
    (.sent (m.startResponse status headers length).1, (m.startResponse status headers length).2)
  | .sendBody data => (.sent (m.sendBody data).1, (m.sendBody data).2)
  | .finishResponse => (.finished m.finishResponse.1, m.finishResponse.2)
  | .sendResponse r => (.sent (m.sendResponse r).1, (m.sendResponse r).2)

/-- What calls that come one after the other give back, and the machine
after the last of them. -/
def calls (m : Machine) : List Call → List Answer × Machine
  | [] => ([], m)
  | c :: cs => ((m.call c).1 :: ((m.call c).2.calls cs).1, ((m.call c).2.calls cs).2)

/-- The events that calls bring. -/
def events (m : Machine) (cs : List Call) : List Event :=
  (m.calls cs).1.filterMap Answer.event?

-- ========================================================== run by run

theorem calls_append (m : Machine) (cs ds : List Call) :
    m.calls (cs ++ ds)
      = ((m.calls cs).1 ++ ((m.calls cs).2.calls ds).1, ((m.calls cs).2.calls ds).2) := by
  induction cs generalizing m with
  | nil => rfl
  | cons c cs ih => rw [List.cons_append, calls, ih, calls, List.cons_append]

theorem events_append (m : Machine) (cs ds : List Call) :
    m.events (cs ++ ds) = m.events cs ++ (m.calls cs).2.events ds := by
  unfold events
  rw [calls_append, List.filterMap_append]

theorem events_singleton (m : Machine) (c : Call) :
    m.events [c] = (m.call c).1.event?.toList := by
  show [(m.call c).1].filterMap Answer.event? = (m.call c).1.event?.toList
  cases h : (m.call c).1.event? with
  | none => rw [List.filterMap_cons_none h]; rfl
  | some e => rw [List.filterMap_cons_some h]; rfl

/-- What holds at the start and is kept by a call holds of every run. -/
theorem calls_induction {m : Machine} {P : List Call → List Event → Machine → Prop}
    (nil : P [] [] m)
    (snoc : ∀ cs es n c, P cs es n →
      P (cs ++ [c]) (es ++ (n.call c).1.event?.toList) (n.call c).2)
    (cs : List Call) : P cs (m.events cs) (m.calls cs).2 := by
  induction cs using List.reverseRecOn with
  | nil => exact nil
  | append_singleton cs c ih =>
      have h := snoc cs _ _ c ih
      rw [events_append, events_singleton, calls_append]
      exact h

-- ======================================= what the writing half touches

/-- What the writing half does to the receiving half: nothing, or it
ends the reading. -/
structure Aside (m n : Machine) : Prop where
  limits : n.limits = m.limits
  eof : n.eof = m.eof
  reading : n.phase = m.phase ∧ n.buffer = m.buffer ∨ n.phase = .closing ∧ n.buffer = []

theorem Aside.refl (m : Machine) : Aside m m := ⟨rfl, rfl, Or.inl ⟨rfl, rfl⟩⟩

theorem Aside.trans {m n o : Machine} (h : Aside m n) (h' : Aside n o) : Aside m o := by
  refine ⟨h'.limits.trans h.limits, h'.eof.trans h.eof, ?_⟩
  rcases h'.reading with ⟨hp, hb⟩ | hc
  · rcases h.reading with ⟨hp', hb'⟩ | ⟨hp', hb'⟩
    · exact Or.inl ⟨hp.trans hp', hb.trans hb'⟩
    · exact Or.inr ⟨hp.trans hp', hb.trans hb'⟩
  · exact Or.inr hc

theorem aside_failOutbound (m : Machine) : Aside m m.failOutbound :=
  ⟨rfl, rfl, Or.inr ⟨rfl, rfl⟩⟩

theorem aside_startResponse (m : Machine) (status : Status) (headers : Headers) (length : Nat) :
    Aside m (m.startResponse status headers length).2 := by
  unfold startResponse
  split
  · exact .refl m
  · exact .refl m
  · exact .refl m
  · split
    · exact aside_failOutbound m
    · exact ⟨rfl, rfl, Or.inl ⟨rfl, rfl⟩⟩

theorem aside_sendBody (m : Machine) (data : Bytes) : Aside m (m.sendBody data).2 := by
  unfold sendBody
  split
  · dsimp only
    split
    · exact aside_failOutbound m
    · exact ⟨rfl, rfl, Or.inl ⟨rfl, rfl⟩⟩
  · exact .refl m
  · exact .refl m

theorem aside_finishResponse (m : Machine) : Aside m m.finishResponse.2 := by
  unfold finishResponse
  split
  · split
    · exact aside_failOutbound m
    · split
      · exact ⟨rfl, rfl, Or.inr ⟨rfl, rfl⟩⟩
      · exact ⟨rfl, rfl, Or.inl ⟨rfl, rfl⟩⟩
  · exact .refl m
  · exact .refl m

theorem aside_sendResponse (m : Machine) (r : Response) : Aside m (m.sendResponse r).2 := by
  have hs := aside_startResponse m r.status r.headers r.body.length
  unfold sendResponse
  split
  · next h => rw [h] at hs; exact hs
  · next m₁ h =>
    rw [h] at hs
    have hb := hs.trans (aside_sendBody m₁ r.body)
    split
    · next h => rw [h] at hb; exact hb
    · next m₂ h =>
      rw [h] at hb
      have hf := hb.trans (aside_finishResponse m₂)
      split
      · next h => rw [h] at hf; exact hf
      · next h => rw [h] at hf; exact hf


-- ===================================================== call by call

/-- What a call does to the receiving half, and the event it brings. -/
inductive Moves (m : Machine) : Call → Option Event → Machine → Prop
  | receive (data : Bytes) : Moves m (.receive data) none (m.receive data)
  | receiveEof : Moves m .receiveEof none m.receiveEof
  | poll {e : Option Event} {n : Machine} : Polls m e n → Moves m .poll e n
  | aside {c : Call} {n : Machine} : c ≠ .receiveEof → Aside m n → Moves m c none n

theorem moves {m : Machine} (hv : m.Valid) (c : Call) :
    Moves m c (m.call c).1.event? (m.call c).2 := by
  cases c with
  | receive data => exact .receive data
  | receiveEof => exact .receiveEof
  | poll => exact .poll (polls hv)
  | startResponse status headers length =>
      exact .aside nofun (aside_startResponse m status headers length)
  | sendBody data => exact .aside nofun (aside_sendBody m data)
  | finishResponse => exact .aside nofun (aside_finishResponse m)
  | sendResponse r => exact .aside nofun (aside_sendResponse m r)

theorem Valid.aside {m n : Machine} (hv : m.Valid) (h : Aside m n) : n.Valid := by
  rcases h.reading with ⟨hp, hb⟩ | ⟨hp, hb⟩
  · exact hv.congr hp hb
  · refine ⟨?_, ?_, fun _ => hb⟩
    · intro k hk
      simp [hp] at hk
    · intro x r hk
      simp [hp] at hk

/-- Every call keeps the receiving half valid. -/
theorem Valid.call {m : Machine} (hv : m.Valid) (c : Call) : (m.call c).2.Valid := by
  cases c with
  | receive data => exact hv.receive data
  | receiveEof => exact hv.receiveEof
  | poll => exact hv.poll
  | startResponse status headers length =>
      exact hv.aside (aside_startResponse m status headers length)
  | sendBody data => exact hv.aside (aside_sendBody m data)
  | finishResponse => exact hv.aside (aside_finishResponse m)
  | sendResponse r => exact hv.aside (aside_sendResponse m r)

theorem Valid.calls {m : Machine} (hv : m.Valid) (cs : List Call) : (m.calls cs).2.Valid :=
  calls_induction (P := fun _ _ n => n.Valid) hv (fun _ _ _ c h => h.call c) cs

/-- The end of the stream is known once it has been told, and not
before. -/
theorem eof_calls (limits : Limits) (cs : List Call) :
    ((start limits).calls cs).2.eof = true ↔ Call.receiveEof ∈ cs := by
  refine (calls_induction (m := start limits)
    (P := fun cs _ n => n.Valid ∧ (n.eof = true ↔ Call.receiveEof ∈ cs))
    ⟨.start limits, by simp [start]⟩ (fun cs es n c ⟨hv, h⟩ => ⟨hv.call c, ?_⟩) cs).2
  have hm := moves hv c
  generalize (n.call c).1.event? = e at hm
  generalize (n.call c).2 = n' at hm
  rw [List.mem_append, List.mem_singleton]
  cases hm with
  | receive data =>
      rw [(n.sameFrame_receive data).eof, h]
      simp
  | receiveEof => exact ⟨fun _ => Or.inr rfl, fun _ => rfl⟩
  | poll hp =>
      have hf := poll_frame hv
      rw [hp.poll_eq hv] at hf
      rw [hf.eof, h]
      simp
  | aside hne ha =>
      rw [ha.eof, h]
      exact ⟨Or.inl, fun hc => hc.resolve_right fun hc => hne hc.symm⟩

end Machine

end WireHttp
