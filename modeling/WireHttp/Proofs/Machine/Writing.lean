/-
What a call does to the writing half of a machine, said once.

`Writes` lists it, guards included: a response is begun, given more of its
body, finished, or sent whole; or the call is refused. A call that came at
the wrong moment changes nothing, any other that is refused ends the
connection (`refused`, `failed`); the calls of the receiving half leave
what is being written as it was (`elsewhere`).

A run is looked at through its `history`, every call with what it gave
back. What a step does to the history and the machine is then what
`Writes` lists, and `history_induction` carries it over the run.
-/
import WireHttp.Proofs.Machine.Call
import WireHttp.Proofs.Machine.Reply

namespace WireHttp

/-- Whether a call is one of the writing half. -/
def Call.isOutbound : Call → Bool
  | startResponse .. | sendBody _ | finishResponse | sendResponse _ => true
  | receive _ | receiveEof | poll => false

/-- Why a call was refused. -/
def Answer.violation? : Answer → Option Violation
  | sent (.error v) | finished (.error v) => some v
  | nothing | polled _ | sent (.ok _) | finished (.ok _) => none

namespace Machine

-- ============================================================ histories

/-- The calls of a run, each with what it gave back. -/
def history (m : Machine) : List Call → List (Call × Answer)
  | [] => []
  | c :: cs => (c, (m.call c).1) :: (m.call c).2.history cs

theorem history_append (m : Machine) (cs ds : List Call) :
    m.history (cs ++ ds) = m.history cs ++ (m.calls cs).2.history ds := by
  induction cs generalizing m with
  | nil => rfl
  | cons c cs ih => rw [List.cons_append, history, ih, history, List.cons_append, calls]

theorem history_concat (m : Machine) (cs : List Call) (c : Call) :
    m.history (cs ++ [c]) = m.history cs ++ [(c, ((m.calls cs).2.call c).1)] :=
  history_append m cs [c]

theorem calls_concat (m : Machine) (cs : List Call) (c : Call) :
    (m.calls (cs ++ [c])).2 = ((m.calls cs).2.call c).2 := by
  rw [calls_append]
  rfl

/-- What holds at the start and is kept by a call holds of every run. -/
theorem history_induction {m : Machine} {P : List (Call × Answer) → Machine → Prop}
    (nil : P [] m)
    (snoc : ∀ h n c, P h n → P (h ++ [(c, (n.call c).1)]) (n.call c).2)
    (cs : List Call) : P (m.history cs) (m.calls cs).2 := by
  induction cs using List.reverseRecOn with
  | nil => exact nil
  | append_singleton cs c ih =>
      rw [history_concat, calls_concat]
      exact snoc _ _ c ih

-- ===================================================== what a call does

/-- What a call does to the writing half. -/
inductive Writes (m : Machine) : Call → Answer → Machine → Prop
  | begun (status : Status) (headers : Headers) (length : Nat) {x : Exchange}
      {rest : List Exchange} : m.outbound = .idle → m.owed = x :: rest →
      headFault? status headers length = none →
      Writes m (.startResponse status headers length)
        (.sent (.ok (renderHead status
          (outboundHeaders status headers length (m.closesAfter x headers) x.http10))))
        { m with
          owed := rest
          mustClose := m.mustClose || m.closesAfter x headers
          outbound := .sending length 0 x.headOnly (m.closesAfter x headers) }
  | added (data : Bytes) {declared written : Nat} {suppress close : Bool} :
      m.outbound = .sending declared written suppress close →
      written + data.length ≤ declared →
      Writes m (.sendBody data) (.sent (.ok (if suppress then [] else data)))
        { m with outbound := .sending declared (written + data.length) suppress close }
  | finished {declared : Nat} {suppress close : Bool} :
      m.outbound = .sending declared declared suppress close →
      Writes m .finishResponse (.finished (.ok ()))
        (if close then m.failOutbound else { m with outbound := .idle })
  | whole (r : Response) {x : Exchange} {rest : List Exchange} : m.outbound = .idle →
      m.owed = x :: rest → r.fault? = none →
      Writes m (.sendResponse r) (.sent (.ok (x.render r (m.closesAfter x r.headers))))
        (if m.closesAfter x r.headers then (m.served 1).failOutbound else m.served 1)
  | refused {c : Call} {a : Answer} (v : Violation) : c.isOutbound = true →
      a.violation? = some v → v.isMistimed = true → Writes m c a m
  | failed {c : Call} {a : Answer} (v : Violation) : c.isOutbound = true →
      a.violation? = some v → v.isMistimed = false → Writes m c a m.failOutbound
  | elsewhere {c : Call} {a : Answer} {n : Machine} : c.isOutbound = false →
      n.outbound = m.outbound → Writes m c a n

/-- A head that is refused has a fault; the call did not merely come at
the wrong moment. -/
theorem not_isMistimed_of_headFault? {status : Status} {headers : Headers} {length : Nat}
    {v : Violation} (h : headFault? status headers length = some v) : v.isMistimed = false := by
  have hd := isDefect_of_headFault? h
  cases v with
  | noPendingRequest | responseInProgress | noResponseInProgress | closed => cases hd
  | _ => rfl

private theorem writes_startResponse (m : Machine) (status : Status) (headers : Headers)
    (length : Nat) :
    Writes m (.startResponse status headers length)
      (.sent (m.startResponse status headers length).1)
      (m.startResponse status headers length).2 := by
  unfold startResponse
  split
  · exact .refused .closed rfl rfl rfl
  · exact .refused .responseInProgress rfl rfl rfl
  · exact .refused .noPendingRequest rfl rfl rfl
  · next x rest ho hx =>
    split
    · next v hf => exact .failed v rfl rfl (not_isMistimed_of_headFault? hf)
    · next hf => exact .begun status headers length ho hx hf

private theorem writes_sendBody (m : Machine) (data : Bytes) :
    Writes m (.sendBody data) (.sent (m.sendBody data).1) (m.sendBody data).2 := by
  unfold sendBody
  split
  · next declared written suppress close ho =>
    dsimp only
    split
    · exact .failed (.bodyOverrun declared (written + data.length)) rfl rfl rfl
    · next hle => exact .added data ho (Nat.le_of_not_lt hle)
  · exact .refused .noResponseInProgress rfl rfl rfl
  · exact .refused .noResponseInProgress rfl rfl rfl

private theorem writes_finishResponse (m : Machine) :
    Writes m .finishResponse (.finished m.finishResponse.1) m.finishResponse.2 := by
  by_cases hw : ∃ declared suppress close, m.outbound = .sending declared declared suppress close
  · obtain ⟨declared, suppress, close, ho⟩ := hw
    rw [finishResponse_of_whole ho]
    exact .finished ho
  · unfold finishResponse
    split
    · next declared written suppress close ho =>
      have hne : written ≠ declared := by
        rintro rfl
        exact hw ⟨_, _, _, ho⟩
      rw [if_pos hne]
      exact .failed (.lengthMismatch declared written) rfl rfl rfl
    · exact .refused .noResponseInProgress rfl rfl rfl
    · exact .refused .noResponseInProgress rfl rfl rfl

private theorem writes_sendResponse (m : Machine) (r : Response) :
    Writes m (.sendResponse r) (.sent (m.sendResponse r).1) (m.sendResponse r).2 := by
  have hs := writes_startResponse m r.status r.headers r.body.length
  cases hstart : m.startResponse r.status r.headers r.body.length with
  | mk answer n =>
      cases answer with
      | error v =>
          have hr : m.sendResponse r = (.error v, n) := by
            unfold sendResponse
            rw [hstart]
          rw [hstart] at hs
          rw [hr]
          cases hs with
          | refused w _ hv hm => exact .refused w rfl hv hm
          | failed w _ hv hm => exact .failed w rfl hv hm
          | elsewhere hc => cases hc
      | ok head =>
          obtain ⟨ho, hf, x, rest, hx⟩ := due_of_startResponse (congrArg Prod.fst hstart)
          rw [sendResponse_of_fit ho hx hf rfl]
          exact .whole r ho hx hf

/-- What a call does to the writing half is what the list says. -/
theorem writes {m : Machine} (hv : m.Valid) (c : Call) :
    Writes m c (m.call c).1 (m.call c).2 := by
  cases c with
  | receive data => exact .elsewhere rfl (m.sameFrame_receive data).outbound
  | receiveEof => exact .elsewhere rfl rfl
  | poll => exact .elsewhere rfl (poll_frame hv).outbound
  | startResponse status headers length => exact writes_startResponse m status headers length
  | sendBody data => exact writes_sendBody m data
  | finishResponse => exact writes_finishResponse m
  | sendResponse r => exact writes_sendResponse m r

end Machine

end WireHttp
