/-
What is owed is what is outstanding. The machine keeps the requests that
it owes an answer, the connection those that it has handed over and the
head that was refused. They are kept apart, and they never come apart
(`Balanced.owed_length`): both are the items of the stream that are not
yet answered, which is what `Tracks` says of a connection that waits.

# Why a response is refused only for a defect of its own

A response is offered to the machine between two whole answers, when
nothing is being sent, and to an item that is owed. So no offer comes at
the wrong moment, and a refusal can only be a fault of the head
(`isDefect_of_headFault?`). The answers that the connection gives on its
own account have none. A response that was supplied with a failure is
sent with a `close` option, which is no fault either; so a fault that is
found is one of the response as it was supplied
(`Outcome.response?_of_fault`).
-/
import WireHttp.Proofs.Connection.Order
import WireHttp.Proofs.Connection.Stops

namespace WireHttp

/-- The response that an outcome supplies. -/
def Outcome.response? : Outcome → Option Response
  | answered r | failed (.respond r) => some r
  | failed (.fault _) | panicked _ => none

/-- Without a response of its own an outcome is answered by the internal
error. -/
theorem Outcome.reaction_of_response? {outcome : Outcome} (h : outcome.response? = none) :
    outcome.reaction.response = Response.internalError.withClose := by
  cases outcome with
  | answered r => cases h
  | failed error =>
      cases error with
      | fault f => rfl
      | respond r => cases h
  | panicked message => rfl

/-- A fault of what is sent is one of the response that was supplied. -/
theorem Outcome.response?_of_fault {outcome : Outcome} {v : Violation}
    (h : outcome.reaction.response.fault? = some v) :
    ∃ r, outcome.response? = some r ∧ r.fault? = some v := by
  cases outcome with
  | answered r => exact ⟨r, rfl, h⟩
  | failed error =>
      cases error with
      | fault f => cases fault?_internalError.symm.trans h
      | respond r => exact ⟨r, rfl, (Response.fault?_withClose r).symm.trans h⟩
  | panicked message => cases fault?_internalError.symm.trans h

/-- How what is owed stands to what is outstanding, and what comes of it,
for a connection with this history. -/
structure Balanced (settings : Settings) (ss : List Stimulus) (c : Connection)
    (es : List Effect) : Prop where
  /-- While the connection waits, an answer is owed for every outstanding
  request, and one for a refused head that has not been told of. -/
  owed_length : c.stage = .waiting →
    c.machine.owed.length = c.jobs.length + c.refused.toList.length
  /-- While the connection waits, no response is half-sent. -/
  whole : c.stage = .waiting →
    c.machine.outbound = .idle ∧ ∃ turns, WrittenWhole settings.limits ss es turns
  /-- A violation that ends the connection is a defect of the response
  that was supplied for the next request, of which nothing is written. -/
  violation : ∀ v, c.stage = .over (.failed (.framing v)) →
    v.isDefect = true ∧ ∃ turns q outcome r, WrittenWhole settings.limits ss es turns ∧
      (items settings.limits (received ss))[turns.length]? = some (.request q) ∧
      (turns.length, outcome) ∈ returned ss ∧ outcome.response? = some r ∧ r.fault? = some v
  /-- The internal error that answers a request without a response of its
  own is not refused: its writing begins. -/
  internalError : ∀ q outcome jobs, c.stage = .waiting →
    c.jobs = ⟨q, .finished outcome⟩ :: jobs → outcome.response? = none →
    ∃ c' bytes, (c.machine.sendResponse Response.internalError.withClose).1 = .ok bytes ∧
      c.step .answer = some (c', []) ∧
      c'.stage = .writing (.ofBytes bytes) outcome.reaction.next
  /-- Nor is the answer to a head that was refused: the connection ends
  for that head only out of writing the answer to it. -/
  refusal : ∀ s c' es' e, c.step s = some (c', es') →
    c'.stage = .over (.closed (.badRequest e)) →
    ∃ (t : Turn) (n : Nat) (w : Writer), c.stage = .writing w t.reaction.next ∧
      t.item = .rejected e ∧ t.Answers settings.limits ss n ∧ w.pending <:+ t.reply

namespace Connection

variable {settings : Settings} {ss : List Stimulus} {es : List Effect} {c : Connection}

/-- A connection that a violation ended has refused the response to a
request. -/
theorem misfit_of_framing {log : List Turn} {part : Bytes} {v : Violation}
    (h : Ends settings ss log part (.failed (.framing v))) :
    part = [] ∧ ∃ q outcome,
      (items settings.limits (received ss))[log.length]? = some (.request q) ∧
      (log.length, outcome) ∈ returned ss ∧ outcome.reaction.response.fault? = some v := by
  generalize he : Ending.failed (.framing v) = ending at h
  cases h with
  | misfit t u hdue hfault =>
      obtain ⟨q, outcome, hq, hback, hr⟩ := hdue.request_of_fault hfault
      rw [hr] at hfault
      rw [hr, (outcome.follows q).onFailure_request] at he
      cases he
      exact ⟨rfl, q, outcome, hq ▸ hdue.item_eq, hback, hfault⟩
  | last t ht =>
      have hf := ht.follows
      generalize t.item = item, t.reaction.next = next at hf he
      cases hf <;> cases he
  | cut t part message ht =>
      have hf := ht.follows
      generalize t.item = item, t.reaction.next = next at hf he
      cases hf <;> cases he
  | _ => cases he

/-- Where an outcome without a response is answered, the internal error is
what the machine is offered, and it takes it. -/
theorem Tracks.answer_internalError {n : Nat} (h : Tracks settings ss n c) {q : Request}
    {outcome : Outcome} {jobs : List Job} (hw : c.stage = .waiting)
    (hjobs : c.jobs = ⟨q, .finished outcome⟩ :: jobs) (ho : outcome.response? = none) :
    ∃ c' bytes, (c.machine.sendResponse Response.internalError.withClose).1 = .ok bytes ∧
      c.step .answer = some (c', []) ∧
      c'.stage = .writing (.ofBytes bytes) outcome.reaction.next := by
  have hpos : 0 < c.jobs.length + c.refused.toList.length := by
    rw [hjobs, List.length_cons]
    omega
  obtain ⟨bytes, machine, hsend⟩ := h.accepts hpos fault?_internalError
  refine ⟨{ c with jobs }.respond outcome, bytes, congrArg Prod.fst hsend, ?_, ?_⟩
  · rw [step_of_waiting hw]
    simp only [stepWaiting, hjobs]
  · rw [respond_eq, Outcome.reaction_of_response? ho]
    unfold beginWrite
    dsimp only
    rw [hsend]

/-- A step that ends a connection for a refused head is one of a
connection that writes the answer to it. -/
theorem writing_of_badRequest {s : Stimulus} {e : HeadError}
    (h : Stops c s (.closed (.badRequest e))) :
    ∃ w, c.stage = .writing w (.endAnyway (.closed (.badRequest e))) := by
  generalize he : Ending.closed (.badRequest e) = ending at h
  cases h with
  | exhausted s peerClosed => cases peerClosed <;> cases he
  | written t peerClosed hstage hf =>
      generalize t.item = item, t.reaction.next = next at hstage hf he
      cases hf with
      | answered => cases peerClosed <;> cases he
      | rejected e =>
          cases he
          exact ⟨_, hstage⟩
      | _ => cases he
  | cut t message hstage hf =>
      generalize t.item = item, t.reaction.next = next at hstage hf he
      cases hf with
      | rejected e =>
          cases he
          exact ⟨_, hstage⟩
      | _ => cases he
  | _ => cases he

/-- And that answer was serialized: the machine did not refuse it. -/
theorem answer_of_writing (h : Ledger settings ss c es) {e : HeadError} {w : Writer}
    (hw : c.stage = .writing w (.endAnyway (.closed (.badRequest e)))) :
    ∃ (t : Turn) (n : Nat) (w : Writer), c.stage = .writing w t.reaction.next ∧
      t.item = .rejected e ∧ t.Answers settings.limits ss n ∧ w.pending <:+ t.reply := by
  cases h with
  | waiting log hstage => cases hw.symm.trans hstage
  | writing log t sent w' hstage ht ha hsent =>
      refine ⟨t, log.length, w', hstage, ?_, ht.answers, sent, hsent⟩
      have hf := ht.follows
      rw [hw] at hstage
      injection hstage with _ hnext
      rw [← hnext] at hf
      generalize t.item = item at hf
      cases hf
      rfl
  | finished log part ending hstage => cases hw.symm.trans hstage
  | unwound log hstage => cases hw.symm.trans hstage

end Connection

/-- At every moment of every run, what is owed and what is outstanding
agree, so that a connection ends for a violation only if the response that
was supplied is defective, with nothing of it written. -/
theorem owes_what_is_outstanding {settings : Settings} {ss : List Stimulus} {c : Connection}
    {es : List Effect} (h : (Connection.start settings).run ss = some (c, es)) :
    Balanced settings ss c es := by
  have hl := Connection.ledger h
  refine ⟨?_, ?_, ?_, ?_, ?_⟩
  · intro hw
    cases hl with
    | waiting log hstage htracks => exact htracks.owed_length
    | writing log t sent w hstage => cases hw.symm.trans hstage
    | finished log part ending hstage => cases hw.symm.trans hstage
    | unwound log hstage => cases hw.symm.trans hstage
  · intro hw
    cases hl with
    | waiting log hstage htracks ha =>
        refine ⟨?_, log, ha.writtenWhole⟩
        rw [htracks.machine_eq]
        exact outbound_after settings.limits ss log.length
    | writing log t sent w hstage => cases hw.symm.trans hstage
    | finished log part ending hstage => cases hw.symm.trans hstage
    | unwound log hstage => cases hw.symm.trans hstage
  · intro v ho
    cases hl with
    | waiting log hstage => cases ho.symm.trans hstage
    | writing log t sent w hstage => cases ho.symm.trans hstage
    | finished log part ending hstage ha hends =>
        cases ho.symm.trans hstage
        obtain ⟨rfl, q, outcome, hitem, hback, hfault⟩ := Connection.misfit_of_framing hends
        obtain ⟨r, hr, hrfault⟩ := Outcome.response?_of_fault hfault
        exact ⟨isDefect_of_headFault? hfault, log, q, outcome, r, ha.writtenWhole, hitem, hback,
          hr, hrfault⟩
    | unwound log hstage => cases ho.symm.trans hstage
  · intro q outcome jobs hw hjobs ho
    cases hl with
    | waiting log hstage htracks => exact htracks.answer_internalError hw hjobs ho
    | writing log t sent w hstage => cases hw.symm.trans hstage
    | finished log part ending hstage => cases hw.symm.trans hstage
    | unwound log hstage => cases hw.symm.trans hstage
  · intro s c' es' e hs ho
    obtain ⟨w, hw⟩ := Connection.writing_of_badRequest (Connection.stops hl hs ho)
    exact Connection.answer_of_writing hl hw

/-- Of two requests the first is answered, in two pieces; the second is
given an interim response, which ends the connection. -/
theorem owes_what_is_outstanding_interim :
    ∃ (ss : List Stimulus) (c : Connection) (es : List Effect),
      (Connection.start {}).run ss = some (c, es) ∧
        c.stage = .over (.failed (.framing (.interimStatus 100))) ∧ (written es).length = 65 ∧
        Balanced {} ss c es := by
  have hrun : ((Connection.start {}).run
      [.read (Text.Utf8.encode "GET /a HTTP/1.1\r\n\r\nGET /b HTTP/1.1\r\n\r\n"), .call, .call,
        .finish 1 (.answered { status := ⟨100, by decide, by decide⟩ }),
        .finish 0 (.answered (.ok [97])), .answer, .write (.accept 5), .write (.accept 100),
        .answer]).map (fun last => (last.1.stage, (written last.2).length))
      = some (.over (.failed (.framing (.interimStatus 100))), 65) := by
    decide +kernel
  obtain ⟨⟨c, es⟩, hrun, heq⟩ := Option.map_eq_some_iff.1 hrun
  obtain ⟨hstage, hlen⟩ := Prod.mk.inj heq
  exact ⟨_, c, es, hrun, hstage, hlen, owes_what_is_outstanding hrun⟩

end WireHttp
