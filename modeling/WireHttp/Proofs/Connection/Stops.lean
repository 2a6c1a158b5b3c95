/-
The steps that end a connection. `Stops` lists them, and `stops` says that
a run takes no other: the transport fails while it is read or written, the
stream ends within a request, a response does not fit, the idle timer
fires, nothing is left to be read or answered, or a response was the last.

Two of the ways that the code leaves open are closed by the ledger. A
connection that goes on is refused nothing of its own, since the head that
was refused is owed an answer and the answer fits (`Tracks.proceed_over`).
And what follows a response was settled by the outcome that called for it
(`Item.Follows`), so a response to a request is never the answer to a
refused head, and none ends a connection for being idle.
-/
import WireHttp.Proofs.Connection.Ledger

namespace WireHttp

/-- What can follow the answer to an item. -/
inductive Item.Follows : Item → AfterWrite → Prop
  | answered (q : Request) : Follows (.request q) .carryOn
  | respond (q : Request) : Follows (.request q) (.endWith (.closed .dispatcherError))
  | fault (q : Request) (message : String) :
      Follows (.request q) (.endWith (.failed (.dispatcher message)))
  | rejected (e : HeadError) : Follows (.rejected e) (.endAnyway (.closed (.badRequest e)))

theorem Outcome.follows (outcome : Outcome) (q : Request) :
    (Item.request q).Follows outcome.reaction.next := by
  cases outcome with
  | answered r => exact .answered q
  | failed error =>
      cases error with
      | fault f => exact .fault q f.chain
      | respond r => exact .respond q
  | panicked message => exact .fault q (panicText message)

/-- A request whose answer does not get through is a failure. -/
theorem Item.Follows.onFailure_request {q : Request} {next : AfterWrite}
    (h : (Item.request q).Follows next) (error : ConnectionError) :
    next.onFailure error = .failed error := by
  cases h <;> rfl

theorem Item.Follows.eq_of_rejected {e : HeadError} {next : AfterWrite}
    (h : (Item.rejected e).Follows next) : next = .endAnyway (.closed (.badRequest e)) := by
  cases h
  rfl

theorem Item.ReactsWith.follows {back : List (Nat × Outcome)} {i : Nat} {item : Item}
    {reaction : Reaction} (h : item.ReactsWith back i reaction) : item.Follows reaction.next := by
  cases item with
  | request q =>
      obtain ⟨outcome, -, rfl⟩ := h
      exact outcome.follows q
  | rejected e =>
      obtain rfl := h
      exact .rejected e

theorem Turn.Sent.follows {limits : Limits} {ss : List Stimulus} {i : Nat} {t : Turn}
    (h : t.Sent limits ss i) : t.item.Follows t.reaction.next := by
  obtain ⟨before, -, hdue, -⟩ := h
  exact hdue.reacts.follows

/-- A response that does not fit was supplied for a request. -/
theorem Turn.Due.request_of_fault {limits : Limits} {ss : List Stimulus} {i : Nat} {t : Turn}
    {v : Violation} (h : t.Due limits ss i) (hf : t.reaction.response.fault? = some v) :
    ∃ q outcome, t.item = .request q ∧ (i, outcome) ∈ returned ss ∧
      t.reaction = outcome.reaction := by
  have hreacts := h.reacts
  cases hitem : t.item with
  | request q =>
      rw [hitem] at hreacts
      obtain ⟨outcome, hback, hr⟩ := hreacts
      exact ⟨q, outcome, rfl, hback, hr⟩
  | rejected e =>
      rw [hitem] at hreacts
      rw [show t.reaction = e.reaction from hreacts] at hf
      cases (fault?_ofStatus e).symm.trans hf

namespace Connection

variable {settings : Settings} {ss : List Stimulus} {es es' : List Effect} {c c' : Connection}
  {s : Stimulus} {n : Nat} {ending : Ending}

-- ====================================================== what a move ends

theorem beginWrite_over {r : Response} {next : AfterWrite}
    (h : (c.beginWrite r next).stage = .over ending) :
    ∃ v, ending = next.onFailure (.framing v) := by
  unfold beginWrite at h
  split at h
  · cases h
  · next v machine _ =>
    cases h
    exact ⟨v, rfl⟩

/-- As many answers are owed as requests are kept, and one more while
there is a refused head to be told of. -/
theorem Tracks.owed_length (h : Tracks settings ss n c) :
    c.machine.owed.length = c.jobs.length + c.refused.toList.length := by
  have hjobs : c.jobs.length = (tallied settings.limits ss).requests.length - n := by
    rw [← List.length_map (f := Job.request), h.mirrors.jobs, List.length_drop]
  have hle := h.mirrors.le
  rw [h.machine_eq, owed_after, List.length_map, List.length_drop, ← items_tallied,
    h.mirrors.refused]
  unfold Tally.items
  rw [List.length_append, List.length_map, List.length_map]
  omega

theorem Tracks.owed_ne_nil (h : Tracks settings ss n c)
    (hpos : 0 < c.jobs.length + c.refused.toList.length) : c.machine.owed ≠ [] := by
  rw [← h.owed_length] at hpos
  exact List.ne_nil_of_length_pos hpos

/-- A response without a fault is never refused while there is something
to answer. -/
theorem Tracks.accepts (h : Tracks settings ss n c)
    (hpos : 0 < c.jobs.length + c.refused.toList.length) {r : Response} (hf : r.fault? = none) :
    ∃ bytes machine, c.machine.sendResponse r = (.ok bytes, machine) := by
  obtain ⟨x, rest, howed⟩ := List.exists_cons_of_ne_nil (h.owed_ne_nil hpos)
  have hout : c.machine.outbound = .idle := by
    rw [h.machine_eq]
    exact outbound_after settings.limits ss n
  exact ⟨_, _, Machine.sendResponse_of_fit hout howed hf rfl⟩

/-- A connection that goes on ends only for want of anything to do: the
answer to a refused head is never refused in its turn. -/
theorem Tracks.proceed_over (h : Tracks settings ss n c) (ho : c.proceed.stage = .over ending) :
    ending = c.lastEnding := by
  have hp := c.proceeds
  generalize c.proceed = c' at hp ho
  cases hp with
  | waits => cases ho
  | refuses e _ hr =>
      obtain ⟨bytes, machine, hsend⟩ := h.accepts (by simp [hr]) (fault?_ofStatus e)
      unfold beginWrite at ho
      dsimp only at ho
      rw [hsend] at ho
      cases ho
  | ends =>
      cases ho
      rfl

-- ============================================================ the list

/-- The steps that end a connection, and how it ends with them. -/
inductive Stops (c : Connection) : Stimulus → Ending → Prop
  | readFault (message : String) : c.stage = .waiting →
      Stops c (.readFault message) (.failed (.transport message))
  | truncated : c.stage = .waiting → c.machine.hasPartialMessage = true →
      Stops c .readEnd (.failed .truncated)
  | misfit (v : Violation) : c.stage = .waiting → Stops c .answer (.failed (.framing v))
  | idle {token : Nat} {timer : IdleTimer} : c.stage = .waiting →
      c.timer.fire? c.now = some (token, timer) → c.isIdle = true →
      Stops c .timer (.closed .idleTimeout)
  | exhausted (s : Stimulus) (peerClosed : Bool) :
      Stops c s (AfterWrite.carryOn.onSuccess peerClosed)
  | written (t : Turn) {w : Writer} {reply : WriteReply} (peerClosed : Bool) :
      c.stage = .writing w t.reaction.next → t.item.Follows t.reaction.next →
      Stops c (.write reply) (t.reaction.next.onSuccess peerClosed)
  | cut (t : Turn) {w : Writer} {reply : WriteReply} (message : String) :
      c.stage = .writing w t.reaction.next → t.item.Follows t.reaction.next →
      Stops c (.write reply) (t.reaction.next.onFailure (.transport message))

/-- A step that ends a waiting connection. -/
theorem Tracks.stops (h : Tracks settings ss n c) (hw : c.stage = .waiting)
    (ha : AttendsWaiting c s c' es') (ho : c'.stage = .over ending) : Stops c s ending := by
  have exhausted {d : Connection} {ss' : List Stimulus} (hd : Tracks settings ss' n d)
      (hp : d.proceed.stage = .over ending) : Stops c s ending := by
    rw [hd.proceed_over hp]
    exact .exhausted s d.peerClosed
  cases ha with
  | read data hc => exact exhausted (h.read hc data).armIfIdle ho
  | readEnd hc =>
      unfold afterReadEnd at ho
      split at ho
      · next hp =>
        cases ho
        exact .truncated hw hp
      · exact exhausted (h.readEnd hc) ho
  | readFault message =>
      cases ho
      exact .readFault message hw
  | call => cases hw.symm.trans ho
  | callPanics => cases ho
  | finish => cases hw.symm.trans ho
  | @answer request outcome =>
      rw [respond_eq] at ho
      obtain ⟨v, rfl⟩ := beginWrite_over ho
      rw [(outcome.follows request).onFailure_request]
      exact .misfit v hw
  | expired hfire hi =>
      cases ho
      exact .idle hw hfire hi
  | stale => exact exhausted (h.aside _ c.now c.stage) ho
  | tick => cases hw.symm.trans ho

/-- A step that ends a connection that writes the answer to an item. -/
theorem stops_of_writing {t : Turn} {w : Writer} (hw : c.stage = .writing w t.reaction.next)
    (hf : t.item.Follows t.reaction.next) (hgo : t.GoesOn → Tracks settings ss n c)
    (hclose : c.machine.isWriteClosed = t.close)
    (ha : AttendsWriting c w t.reaction.next s c' es')
    (ho : c'.stage = .over ending) : Stops c s ending := by
  cases ha with
  | cut =>
      cases ho
      exact .cut t _ hw hf
  | part => cases ho
  | last =>
      rcases afterWrite_eq hclose with ⟨hgoes, heq⟩ | ⟨-, heq⟩
      · rw [heq] at ho
        rw [(hgo hgoes).armIfIdle.proceed_over ho]
        exact .exhausted _ _
      · rw [heq] at ho
        cases ho
        exact .written t c.peerClosed hw hf
  | tick => cases hw.symm.trans ho

/-- No other step ends a connection. -/
theorem stops (hl : Ledger settings ss c es) (hs : c.step s = some (c', es'))
    (ho : c'.stage = .over ending) : Stops c s ending := by
  cases hl with
  | waiting log hstage htracks => exact htracks.stops hstage (attends_of_waiting hstage hs) ho
  | writing log t sent w hstage ht ha hsent hp hclose hgo =>
      exact stops_of_writing hstage ht.follows hgo hclose (attends_of_writing hstage hs) ho
  | finished log part e hstage => cases (step_of_over hstage s).symm.trans hs
  | unwound log hstage => cases (step_of_unwound hstage s).symm.trans hs

end Connection

end WireHttp
