/-
How a connection takes its leave. A response that is sent lists a `close`
option exactly if the connection ends with it (`Turn.Due.asksClose_headers`):
the option is added unless the response has it, and a response that has
it ends the connection. So none of the turns that went on announces the
close, and nothing is written after one that does.

A connection that ends for a reason of its own ends with a turn, and the
turn was the last because it announces the close
(`Turn.Due.close_of_last`). There are two other ways out, and both are
closed. It could run out of things to do without having been told of the
end; but then it has answered an item that none may follow, and went on,
which no turn does (`Answered.wantsRead`); and once it has been told of
the end, that is how it ends (`peerClosed_of_ended`). And the answer to a
refused head may be cut short; but only by a write fault, since a
connection is over with the first fault of a read
(`failed_of_readFault`).
-/
import WireHttp.Proofs.Connection.InTurn
import WireHttp.Proofs.Connection.Stops
import WireHttp.Proofs.Response.Written

namespace WireHttp

-- ======================================================== the close option

namespace Turn

/-- The headers of the answer, as they are rendered in its reply. -/
def headers (t : Turn) : Headers :=
  outboundHeaders t.reaction.response.status t.reaction.response.headers
    t.reaction.response.body.length t.close t.item.exchange.http10

/-- The head of the answer lists a `close` option. -/
def Announces (t : Turn) : Prop :=
  t.headers.asksClose = true

variable {limits : Limits} {ss : List Stimulus} {i : Nat} {t : Turn}

theorem Due.asksClose_headers (h : t.Due limits ss i) : t.headers.asksClose = t.close := by
  unfold headers
  rw [asksClose_outboundHeaders]
  cases hc : t.reaction.response.headers.asksClose with
  | false => rfl
  | true =>
      rw [← h.close_eq]
      unfold Machine.closesAfter
      rw [hc, Bool.or_true]
      rfl

/-- A turn is the last only if the connection ends with its answer. -/
theorem Due.close_of_last (h : t.Due limits ss i) (hl : ¬ t.GoesOn) : t.close = true := by
  have closes (hc : t.item.exchange.keepAlive = false ∨
      t.reaction.response.headers.asksClose = true) : t.close = true := by
    rw [← h.close_eq]
    unfold Machine.closesAfter
    rcases hc with hc | hc
    · rw [hc, Bool.not_false, Bool.or_true, Bool.true_or]
    · rw [hc, Bool.or_true]
  have hreacts := h.reacts
  cases hitem : t.item with
  | rejected e => exact closes (Or.inl (by rw [hitem]; rfl))
  | request q =>
      rw [hitem] at hreacts
      obtain ⟨outcome, -, hr⟩ := hreacts
      cases outcome with
      | answered r =>
          rw [← Bool.not_eq_false]
          exact fun hc => hl ⟨hc, by rw [hr]; rfl⟩
      | failed error =>
          refine closes (Or.inr ?_)
          rw [hr]
          cases error <;> exact Response.asksClose_withClose _
      | panicked message =>
          refine closes (Or.inr ?_)
          rw [hr]
          exact Response.asksClose_withClose _

theorem Sent.announces (h : t.Sent limits ss i) (hl : ¬ t.GoesOn) : t.Announces := by
  obtain ⟨before, -, hdue, -⟩ := h
  exact hdue.asksClose_headers.trans (hdue.close_of_last hl)

theorem Sent.not_announces (h : t.Sent limits ss i) (hgo : t.GoesOn) : ¬ t.Announces := by
  obtain ⟨before, -, hdue, -⟩ := h
  unfold Announces
  rw [hdue.asksClose_headers, hgo.1]
  nofun

end Turn

-- ========================================================== the other ways

/-- Whether a stimulus is a fault of a write. -/
def Stimulus.isWriteFault : Stimulus → Bool
  | write (.accept 0) | write (.fail _) => true
  | _ => false

theorem Stimulus.isWriteFault_of_isFault {s : Stimulus} (h : s.isFault = true)
    (hr : ∀ message, s ≠ .readFault message) : s.isWriteFault = true := by
  cases s with
  | readFault message => exact absurd rfl (hr message)
  | write reply =>
      cases reply with
      | accept limit =>
          cases limit with
          | zero => rfl
          | succ limit => cases h
      | fail message => rfl
  | _ => cases h

/-- Whether a connection that ends in this way has announced it, unless a
write fault kept it from doing so. -/
def Ending.isAnnounced : Ending → Bool
  | closed .completed | closed .dispatcherError | closed (.badRequest _)
  | failed (.dispatcher _) => true
  | closed .peerClosed | closed .idleTimeout | failed (.framing _) | failed (.transport _)
  | failed .truncated => false

namespace Connection

variable {settings : Settings} {ss : List Stimulus} {es : List Effect} {c : Connection}

/-- A connection is over with the first fault of a read. -/
theorem failed_of_readFault (h : (start settings).run ss = some (c, es)) :
    ∀ message, .readFault message ∈ ss → c.stage = .over (.failed (.transport message)) := by
  refine run_induction (P := fun ss c _ => ∀ message, .readFault message ∈ ss →
    c.stage = .over (.failed (.transport message))) (fun _ hm => by cases hm) ?_ h
  intro ss c es s c' es' _ ih hs message hm
  rcases List.mem_append.1 hm with hm | hm
  · cases (step_of_over (ih message hm) s).symm.trans hs
  · rw [← List.mem_singleton.1 hm] at hs
    rcases attends hs with ⟨-, ha⟩ | ⟨_, _, -, ha⟩
    · cases ha
      rfl
    · cases ha

/-- A connection that has been told of the end has noted that the peer
closed its side. -/
theorem peerClosed_of_ended (h : (start settings).run ss = some (c, es)) :
    ended ss = true → (tallied settings.limits ss).peerClosed = true := by
  refine run_induction (P := fun ss _ _ => ended ss = true →
    (tallied settings.limits ss).peerClosed = true) nofun ?_ h
  intro ss c es s c' es' hrun ih hs hended
  have still (hd : s.data = []) (hne : s ≠ .readEnd) :
      (tallied settings.limits (ss ++ [s])).peerClosed = true := by
    rw [tallied_concat settings.limits ss hd hne]
    refine ih ?_
    rw [ended_concat, beq_false_of_ne hne, Bool.or_false] at hended
    exact hended
  cases ledger hrun with
  | waiting log hstage htracks =>
      cases attends_of_waiting hstage hs with
      | read data hc =>
          rw [ended_concat, htracks.ended_eq hc] at hended
          cases hended
      | readEnd hc =>
          have hclosed := (htracks.readEnd hc).mirrors.peerClosed
          rw [htracks.readEnd_eq hc] at hclosed
          exact hclosed.symm
      | _ => exact still rfl nofun
  | writing log t sent w hstage =>
      have hq := (attends_of_writing hstage hs).quiet
      exact still hq.data hq.ne_readEnd
  | finished log part ending hstage => cases (step_of_over hstage s).symm.trans hs
  | unwound log hstage => cases (step_of_unwound hstage s).symm.trans hs

/-- A connection that has gone on with every answer, and has nothing left
to do, has been told of the end. -/
theorem peerClosed_of_exhausted {log : List Turn} {part : Bytes}
    (h : (start settings).run ss = some (c, es)) (ha : Answered settings.limits ss es log part)
    (hlen : (items settings.limits (received ss)).length = log.length)
    (hw : (after settings.limits ss log.length).wantsRead = false) :
    (tallied settings.limits ss).peerClosed = true := by
  refine peerClosed_of_ended h ?_
  rw [← Bool.not_eq_false]
  intro he
  cases hw.symm.trans (ha.wantsRead he hlen)

end Connection

-- =============================================================== the close

/-- How what has been written stands to the close of a connection: the
whole responses, and what has been written of the next. -/
structure TakesLeave (settings : Settings) (ss : List Stimulus) (c : Connection)
    (es : List Effect) (turns : List Turn) (part : Bytes) : Prop where
  written_eq : written es = turns.flatMap Turn.reply ++ part
  answers : ∀ (i : Nat) (t : Turn), turns[i]? = some t → t.Answers settings.limits ss i
  part_eq : part = [] ∨ ∃ t : Turn, t.Answers settings.limits ss turns.length ∧ part <+: t.reply
  /-- Nothing is written after a response that announces the close, which
  ends the connection. -/
  last : ∀ (i : Nat) (t : Turn), turns[i]? = some t → t.Announces →
    i + 1 = turns.length ∧ part = [] ∧ ∃ ending, c.stage = .over ending
  /-- A connection that ends for a reason of its own has written its last
  response in full, which announces the close, as no other has done. -/
  announced : ∀ ending, c.stage = .over ending → ending.isAnnounced = true →
    (∀ e, ending = .closed (.badRequest e) → ∀ s ∈ ss, s.isWriteFault = false) →
    ∃ front last, turns = front ++ [last] ∧ part = [] ∧ last.Announces ∧
      ∀ t ∈ front, ¬ t.Announces

section

variable {settings : Settings} {ss : List Stimulus} {c : Connection} {es : List Effect}
  {log : List Turn} {part : Bytes} {ending : Ending}

theorem Answered.not_announces (h : Answered settings.limits ss es log part) :
    ∀ t ∈ log, ¬ t.Announces := by
  intro t ht
  obtain ⟨i, hi⟩ := List.mem_iff_getElem?.1 ht
  obtain ⟨hsent, hgo⟩ := h.turns i t hi
  exact hsent.not_announces hgo

/-- A connection that has not ended for a reason of its own has announced
nothing. -/
theorem Answered.takesLeave (h : Answered settings.limits ss es log part)
    (hp : part = [] ∨ ∃ t, Turn.Sent settings.limits ss log.length t ∧ part <+: t.reply)
    (hn : ∀ ending, c.stage = .over ending → ending.isAnnounced = true →
      ∃ e, ending = .closed (.badRequest e) ∧ ∃ s ∈ ss, s.isWriteFault = true) :
    TakesLeave settings ss c es log part := by
  refine ⟨h.written_eq, fun i t ht => (h.turns i t ht).1.answers, ?_, ?_, ?_⟩
  · exact hp.imp_right fun ⟨t, ht, hpre⟩ => ⟨t, ht.answers, hpre⟩
  · intro i t ht ha
    exact absurd ha (h.not_announces t (List.mem_of_getElem? ht))
  · intro ending ho ha hf
    obtain ⟨e, he, s, hs, hfault⟩ := hn ending ho ha
    cases hfault.symm.trans (hf e he s hs)

/-- A connection that has ended with a turn has announced it then. -/
theorem Answered.takesLeave_last {t : Turn} (h : Answered settings.limits ss es log t.reply)
    (ht : t.Sent settings.limits ss log.length) (hl : ¬ t.GoesOn) (ho : c.stage = .over ending) :
    TakesLeave settings ss c es (log ++ [t]) [] := by
  refine ⟨?_, ?_, Or.inl rfl, ?_, ?_⟩
  · rw [h.written_eq, List.flatMap_append, List.flatMap_singleton, List.append_nil]
  · intro i u hu
    rcases getElem?_concat hu with hu | ⟨rfl, rfl⟩
    · exact (h.turns i u hu).1.answers
    · exact ht.answers
  · intro i u hu ha
    rcases getElem?_concat hu with hu | ⟨rfl, rfl⟩
    · exact absurd ha (h.not_announces u (List.mem_of_getElem? hu))
    · exact ⟨by rw [List.length_append, List.length_singleton], rfl, ending, ho⟩
  · intro _ _ _ _
    exact ⟨log, t, rfl, rfl, ht.announces hl, h.not_announces⟩

/-- At every moment of every run, nothing has been written after a
response that announces the close; and a connection that has ended for a
reason of its own, with no write fault in the way, has ended with one. -/
theorem announces_its_close (h : (Connection.start settings).run ss = some (c, es)) :
    ∃ turns part, TakesLeave settings ss c es turns part := by
  cases Connection.ledger h with
  | waiting log hstage htracks ha =>
      exact ⟨log, [], ha.takesLeave (Or.inl rfl) fun _ ho => by cases ho.symm.trans hstage⟩
  | writing log t sent w hstage ht ha hsent =>
      exact ⟨log, sent, ha.takesLeave (Or.inr ⟨t, ht, w.pending, hsent⟩)
        fun _ ho => by cases ho.symm.trans hstage⟩
  | unwound log hstage _ ha =>
      exact ⟨log, [], ha.takesLeave (Or.inl rfl) fun _ ho => by cases ho.symm.trans hstage⟩
  | finished log part ending hstage ha hends =>
      have hpart := hends.part
      cases hends with
      | last t ht hl => exact ⟨log ++ [t], [], ha.takesLeave_last ht hl hstage⟩
      | exhausted hlen hw =>
          refine ⟨log, [], ha.takesLeave hpart fun _ ho hann => ?_⟩
          -- the end of the stream is known by now, so that is the reason
          rw [Connection.peerClosed_of_exhausted h ha hlen hw] at hstage
          cases ho.symm.trans hstage
          cases hann
      | misfit t v hdue hf =>
          refine ⟨log, [], ha.takesLeave hpart fun _ ho hann => ?_⟩
          obtain ⟨q, outcome, -, -, hr⟩ := hdue.request_of_fault hf
          rw [hr, (outcome.follows q).onFailure_request] at hstage
          cases ho.symm.trans hstage
          cases hann
      | cut t part message ht hpre hf =>
          refine ⟨log, part, ha.takesLeave hpart fun _ ho hann => ?_⟩
          obtain ⟨s, hs, hfault⟩ := hf
          have hfollows := ht.follows
          cases hitem : t.item with
          | request q =>
              rw [hitem] at hfollows
              rw [hfollows.onFailure_request] at hstage
              cases ho.symm.trans hstage
              cases hann
          | rejected e =>
              rw [hitem] at hfollows
              rw [hfollows.eq_of_rejected] at hstage
              cases ho.symm.trans hstage
              -- a fault of a read would have ended the connection otherwise
              refine ⟨e, rfl, s, hs, Stimulus.isWriteFault_of_isFault hfault ?_⟩
              rintro message rfl
              cases hstage.symm.trans (Connection.failed_of_readFault h message hs)
      | _ =>
          refine ⟨log, [], ha.takesLeave hpart fun _ ho hann => ?_⟩
          cases ho.symm.trans hstage
          cases hann

/-- Of two requests the second is answered with a failure that brings its
response, and a third is not read. -/
theorem announces_its_close_failure :
    ∃ (ss : List Stimulus) (c : Connection) (es : List Effect),
      (Connection.start {}).run ss = some (c, es) ∧
        c.stage = .over (.closed .dispatcherError) ∧
        ∃ turns part, TakesLeave {} ss c es turns part := by
  have hrun : ((Connection.start {}).run
      [.read (Text.Utf8.encode "GET /a HTTP/1.1\r\n\r\nGET /b HTTP/1.1\r\n\r\nGET /c HT"), .call,
        .call, .finish 1 (.failed (.respond .notFound)), .finish 0 (.answered (.ok [97])),
        .answer, .write (.accept 500), .answer, .write (.accept 7), .write (.accept 500)]).map
      (fun last => last.1.stage) = some (.over (.closed .dispatcherError)) := by
    decide +kernel
  obtain ⟨⟨c, es⟩, hrun, hstage⟩ := Option.map_eq_some_iff.1 hrun
  exact ⟨_, c, es, hrun, hstage, announces_its_close hrun⟩

end

end WireHttp
