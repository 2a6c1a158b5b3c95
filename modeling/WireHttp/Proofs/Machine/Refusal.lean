/-
A call that is refused does no harm, or it is the end. Which of the two
hangs on the reason alone (`harmless_or_final`): a call that merely came
at the wrong moment leaves the machine as it was, and any other leaves it
`Over`, with what it owes untouched.

What `Writes` lists of a refused call is these two cases, so the reasons
need not be gone through operation by operation; not even for a response
that is sent whole, which is refused as it begins or not at all.

A machine that is over is one that every call leaves as it is, but for
noting the end of the stream (`Over.call_eq`). So it stays over, and what any
further calls give back can be read off the calls (`Over.calls`).
-/
import WireHttp.Proofs.Machine.Writing

namespace WireHttp

/-- What a call gives back once the connection is over. -/
def Call.afterEnd : Call → Answer
  | receive _ | receiveEof => .nothing
  | poll => .polled none
  | startResponse .. | sendResponse _ => .sent (.error .closed)
  | sendBody _ => .sent (.error .noResponseInProgress)
  | finishResponse => .finished (.error .noResponseInProgress)

theorem Violation.isMistimed_iff (v : Violation) :
    v.isMistimed = true ↔
      v = .noPendingRequest ∨ v = .responseInProgress ∨ v = .noResponseInProgress ∨
        v = .closed := by
  cases v <;> simp [isMistimed]

/-- A call of the receiving half is never refused. -/
theorem isOutbound_of_violation? {m : Machine} {c : Call} {v : Violation}
    (h : (m.call c).1.violation? = some v) : c.isOutbound = true := by
  cases c with
  | receive | receiveEof | poll => cases h
  | startResponse | sendBody | finishResponse | sendResponse => rfl

namespace Machine

variable {m : Machine}

/-- Nothing more is read and nothing more may be written, and no response
is left half sent. -/
structure Over (m : Machine) : Prop where
  outbound : m.outbound = .closed
  phase : m.phase = .closing
  buffer : m.buffer = []
  mustClose : m.mustClose = true

theorem over_failOutbound (m : Machine) : m.failOutbound.Over :=
  ⟨rfl, rfl, rfl, rfl⟩

/-- No call of a machine that is over does anything, but that it notes the
end of the stream. -/
theorem Over.call_eq (h : m.Over) {c : Call} (hc : c ≠ .receiveEof) :
    m.call c = (c.afterEnd, m) := by
  have hstart (status : Status) (headers : Headers) (length : Nat) :
      m.startResponse status headers length = (.error .closed, m) := by
    unfold startResponse
    rw [h.outbound]
  cases c with
  | receive data =>
      have hsame : m.receive data = m := if_pos h.phase
      simp only [Machine.call, hsame, Call.afterEnd]
  | receiveEof => exact absurd rfl hc
  | poll =>
      have hsame : m.poll = (none, m) := by
        unfold poll
        rw [h.phase]
      simp only [Machine.call, hsame, Call.afterEnd]
  | startResponse status headers length =>
      simp only [Machine.call, hstart, Call.afterEnd]
  | sendBody data =>
      have hsame : m.sendBody data = (.error .noResponseInProgress, m) := by
        unfold sendBody
        rw [h.outbound]
      simp only [Machine.call, hsame, Call.afterEnd]
  | finishResponse =>
      have hsame : m.finishResponse = (.error .noResponseInProgress, m) := by
        unfold finishResponse
        rw [h.outbound]
      simp only [Machine.call, hsame, Call.afterEnd]
  | sendResponse r =>
      have hsame : m.sendResponse r = (.error .closed, m) := by
        unfold sendResponse
        rw [hstart]
      simp only [Machine.call, hsame, Call.afterEnd]

theorem Over.call (h : m.Over) (c : Call) :
    (m.call c).1 = c.afterEnd ∧ (m.call c).2.Over := by
  by_cases hc : c = .receiveEof
  · subst hc
    exact ⟨rfl, h.outbound, h.phase, h.buffer, h.mustClose⟩
  · rw [h.call_eq hc]
    exact ⟨rfl, h⟩

/-- So a machine that is over stays so, and gives every call the answer
that is left. -/
theorem Over.calls (h : m.Over) (cs : List Call) :
    (m.calls cs).1 = cs.map Call.afterEnd ∧ (m.calls cs).2.Over := by
  induction cs generalizing m with
  | nil => exact ⟨rfl, h⟩
  | cons c cs ih =>
      obtain ⟨hanswer, hnext⟩ := h.call c
      obtain ⟨hanswers, hlast⟩ := ih hnext
      refine ⟨?_, hlast⟩
      rw [Machine.calls, hanswer, hanswers, List.map_cons]

/-- A call is refused because it came at the wrong moment, and changes
nothing, or it ends the connection. -/
theorem refused_eq {c : Call} {v : Violation} (hv : m.Valid)
    (h : (m.call c).1.violation? = some v) :
    (m.call c).2 = if v.isMistimed then m else m.failOutbound := by
  have hout := isOutbound_of_violation? h
  have hw := writes hv c
  generalize (m.call c).1 = a at h hw
  generalize (m.call c).2 = n at hw
  cases hw with
  | begun | added | finished | whole => cases h
  | refused w _ hviolation hmistimed =>
      cases hviolation.symm.trans h
      exact (if_pos hmistimed).symm
  | failed w _ hviolation hlate =>
      cases hviolation.symm.trans h
      exact (if_neg (Bool.eq_false_iff.1 hlate)).symm
  | elsewhere hin => cases hin.symm.trans hout

/-- However a machine has been called, a call that it refuses either came
at the wrong moment and changes nothing, or has ended the connection: what
is owed is owed still, and whatever is called from then on gives back what
is left to give back. -/
theorem harmless_or_final (limits : Limits) (cs : List Call) {c : Call} {v : Violation}
    (h : (((start limits).calls cs).2.call c).1.violation? = some v) :
    let m := ((start limits).calls cs).2
    let n := (m.call c).2
    if v = .noPendingRequest ∨ v = .responseInProgress ∨ v = .noResponseInProgress ∨ v = .closed
    then n = m
    else n.Over ∧ n.owed = m.owed ∧ ∀ later, (n.calls later).1 = later.map Call.afterEnd := by
  have hnext := refused_eq ((Valid.start limits).calls cs) h
  dsimp only
  rw [hnext]
  by_cases hm : v.isMistimed = true
  · rw [if_pos hm, if_pos (v.isMistimed_iff.1 hm)]
  · rw [if_neg hm, if_neg (mt v.isMistimed_iff.2 hm)]
    have hover := over_failOutbound ((start limits).calls cs).2
    exact ⟨hover, rfl, fun later => (hover.calls later).1⟩

/-- A body overruns its length while a second request is owed an answer
and a third has begun to arrive. -/
theorem harmless_or_final_overrun :
    ∃ cs : List Call,
      let m := ((start {}).calls cs).2
      let n := (m.call (.sendBody [1, 2, 3, 4])).2
      m.buffer ≠ [] ∧ m.owed.length = 1 ∧
        (m.call (.sendBody [1, 2, 3, 4])).1.violation? = some (.bodyOverrun 3 4) ∧
        n.Over ∧ n.owed = m.owed ∧ ∀ later, (n.calls later).1 = later.map Call.afterEnd := by
  have hrun : ∃ cs : List Call,
      ((start {}).calls cs).2.buffer ≠ [] ∧ ((start {}).calls cs).2.owed.length = 1 ∧
        (((start {}).calls cs).2.call (.sendBody [1, 2, 3, 4])).1.violation?
          = some (.bodyOverrun 3 4) :=
    ⟨[.receive (Text.Utf8.encode "GET / HTTP/1.1\r\n\r\nGET / HTTP/1.1\r\n\r\nGET"),
      .poll, .poll, .poll, .poll, .startResponse .ok [] 3], by decide +kernel⟩
  obtain ⟨cs, hbuffer, howed, hrefused⟩ := hrun
  have hfinal := harmless_or_final {} cs hrefused
  dsimp only at hfinal
  rw [if_neg (by decide)] at hfinal
  exact ⟨cs, hbuffer, howed, hrefused, hfinal⟩

end Machine

end WireHttp
