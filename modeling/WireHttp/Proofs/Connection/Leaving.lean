/-
A connection that reads no more, and what it still has to do. What it
writes is known from the outset. `farewell` gives the turns: one for every
outstanding request in order, but none after the first that closes the
connection, and the last outstanding one closes it in any case. `Leaving`
is the invariant, told by the stage: what is still to be written is what
the farewell leaves of the requests that remain, after the bytes that are
pending.

# Why it comes to an end

Every step but the passing of time pays. A request that is queued has
three steps before it, to be handed over, to come back and to be taken up;
and a write takes at least a byte of what is still to be written. `effort`
counts the former, and neither it nor the latter ever grows
(`Leaving.step`). There is always a next step (`Leaving.attends`), for the
timer does not run and is not waited for. So a run that cannot go on is
over, and the only way to be over is that all has been written.
-/
import WireHttp.Proofs.Connection.Farewell
import WireHttp.Proofs.Connection.Idleness

namespace WireHttp

-- ========================================================== the farewell

/-- The outcomes that come back, of the requests from the `n`-th on, are
these responses; and no request panics when it is handed over. -/
structure Supplies (answer : Nat → Response) (n : Nat) (ss : List Stimulus) : Prop where
  answered : ∀ p ∈ returned ss, n ≤ p.1 → p.2 = .answered (answer p.1)
  calls : .callPanics ∉ ss

/-- The turns of a connection that reads no more and has these requests to
answer, the first of which is the `i`-th: the connection closes with a
request that none may follow, with a response that asks for it, and with
the last. -/
def farewell (answer : Nat → Response) (i : Nat) : List Request → List Turn
  | [] => []
  | q :: rest =>
    let close := rest.isEmpty || !q.keepAlive || (answer i).headers.asksClose
    ⟨.request q, ⟨answer i, .carryOn⟩, close⟩ ::
      if close then [] else farewell answer (i + 1) rest

theorem farewell_closing {answer : Nat → Response} {i : Nat} {q : Request} {rest : List Request}
    (h : (rest.isEmpty || !q.keepAlive || (answer i).headers.asksClose) = true) :
    farewell answer i (q :: rest) = [⟨.request q, ⟨answer i, .carryOn⟩, true⟩] := by
  rw [farewell, h, if_pos rfl]

theorem farewell_going {answer : Nat → Response} {i : Nat} {q : Request} {rest : List Request}
    (h : (rest.isEmpty || !q.keepAlive || (answer i).headers.asksClose) = false) :
    farewell answer i (q :: rest)
      = ⟨.request q, ⟨answer i, .carryOn⟩, false⟩ :: farewell answer (i + 1) rest := by
  rw [farewell, h, if_neg Bool.false_ne_true]

/-- Every response has a head. -/
theorem Turn.reply_ne_nil (t : Turn) : t.reply ≠ [] := by
  unfold Turn.reply Exchange.render renderHead
  simp

/-- A turn announces the close if its response asks for it or the core
has added it. -/
theorem Turn.announces_iff (t : Turn) :
    t.Announces ↔ t.reaction.response.headers.asksClose = true ∨ t.close = true := by
  unfold Turn.Announces Turn.headers
  rw [asksClose_outboundHeaders, Bool.or_eq_true]

/-- The last turn of a farewell announces the close, and no other does. -/
theorem farewell_announces (answer : Nat → Response) (i : Nat) {qs : List Request}
    (hne : qs ≠ []) : ∃ front last, farewell answer i qs = front ++ [last] ∧ last.Announces ∧
      ∀ t ∈ front, ¬ t.Announces := by
  induction qs generalizing i with
  | nil => exact absurd rfl hne
  | cons q rest ih =>
      cases hclose : rest.isEmpty || !q.keepAlive || (answer i).headers.asksClose with
      | true =>
          refine ⟨[], _, farewell_closing hclose, (Turn.announces_iff _).2 (Or.inr rfl), ?_⟩
          intro t ht
          cases ht
      | false =>
          have hsplit := hclose
          simp only [Bool.or_eq_false_iff] at hsplit
          obtain ⟨⟨hmore, -⟩, hask⟩ := hsplit
          obtain ⟨front, last, hrest, hlast, hfront⟩ :=
            ih (i + 1) (List.isEmpty_eq_false_iff.1 hmore)
          refine ⟨⟨.request q, ⟨answer i, .carryOn⟩, false⟩ :: front, last, ?_, hlast, ?_⟩
          · rw [farewell_going hclose, hrest]
            rfl
          · intro t ht
            rcases List.mem_cons.1 ht with rfl | ht
            · rw [Turn.announces_iff]
              rintro (h | h)
              · cases hask.symm.trans h
              · cases h
            · exact hfront t ht

-- ============================================================ the effort

/-- Whether a stimulus is the passing of time. -/
def Stimulus.isTick : Stimulus → Bool
  | tick _ => true
  | _ => false

/-- How many steps a request is from being taken up to be answered. -/
def JobState.distance : JobState → Nat
  | queued => 3
  | called => 2
  | finished _ => 1

/-- How many steps all of them are. -/
def effort : List Job → Nat
  | [] => 0
  | job :: jobs => job.state.distance + effort jobs

theorem effort_le (jobs : List Job) : effort jobs ≤ 3 * jobs.length := by
  induction jobs with
  | nil => exact Nat.le_refl _
  | cons job jobs ih =>
      have hjob : job.state.distance ≤ 3 := by
        cases job.state <;> simp [JobState.distance]
      rw [effort, List.length_cons]
      omega

theorem effort_callFirst {jobs jobs' : List Job} {request : Request}
    (h : Connection.callFirst jobs = some (request, jobs')) : effort jobs' + 1 = effort jobs := by
  induction jobs generalizing jobs' with
  | nil => cases h
  | cons first jobs ih =>
      unfold Connection.callFirst at h
      by_cases hq : first.state = .queued
      · rw [if_pos hq] at h
        cases h
        rw [effort, effort, hq]
        show 2 + effort jobs + 1 = 3 + effort jobs
        omega
      · rw [if_neg hq] at h
        obtain ⟨⟨request', rest⟩, hrest, heq⟩ := Option.map_eq_some_iff.1 h
        cases heq
        rw [effort, effort, ← ih hrest, Nat.add_assoc]

theorem effort_set {jobs : List Job} {place : Nat} {job : Job} (h : jobs[place]? = some job)
    (job' : Job) :
    effort (jobs.set place job') + job.state.distance = effort jobs + job'.state.distance := by
  induction jobs generalizing place with
  | nil => cases h
  | cons first jobs ih =>
      cases place with
      | zero =>
          cases h
          rw [List.set_cons_zero, effort, effort]
          omega
      | succ place =>
          have hrest := ih h
          rw [List.set_cons_succ, effort, effort]
          omega

theorem effort_finishAt {jobs jobs' : List Job} {place : Nat} {outcome : Outcome}
    (h : Connection.finishAt jobs place outcome = some jobs') :
    effort jobs' + 1 = effort jobs := by
  unfold Connection.finishAt at h
  cases hjob : jobs[place]? with
  | none =>
      rw [hjob] at h
      cases h
  | some job =>
      rw [hjob] at h
      dsimp only at h
      by_cases hc : job.state = .called
      · rw [if_pos hc] at h
        cases h
        have hset := effort_set hjob { job with state := .finished outcome }
        rw [hc] at hset
        change effort _ + 2 = effort _ + 1 at hset
        omega
      · rw [if_neg hc] at h
        cases h

-- ========================================================== the invariant

namespace Connection

variable {answer : Nat → Response} {i : Nat} {qs : List Request} {c c' : Connection}
  {s : Stimulus} {es : List Effect} {left : Bytes}

/-- The connection reads no more, and the requests `qs`, from the `i`-th
on, are all that there is to be answered. -/
structure Remains (answer : Nat → Response) (i : Nat) (qs : List Request) (c : Connection) :
    Prop where
  phase : c.machine.phase = .closing
  outbound : c.machine.outbound = .idle
  owed : c.machine.owed = qs.map Request.exchange
  jobs : c.jobs.map Job.request = qs
  peerClosed : c.peerClosed = true
  unarmed : c.timer.armed? = none
  fits : ∀ k, i ≤ k → k < i + qs.length → (answer k).fault? = none
  finished : ∀ (place : Nat) (job : Job) (outcome : Outcome), c.jobs[place]? = some job →
    job.state = .finished outcome → outcome = .answered (answer (i + place))

/-- What is still to be written, before the connection is over. -/
inductive Leaving (answer : Nat → Response) (i : Nat) (c : Connection) : Bytes → Prop
  | waiting (qs : List Request) : c.stage = .waiting → qs ≠ [] → Remains answer i qs c →
      Leaving answer i c ((farewell answer i qs).flatMap Turn.reply)
  | between (w : Writer) (qs : List Request) : c.stage = .writing w .carryOn →
      w.isDone = false → qs ≠ [] → Remains answer i qs c →
      Leaving answer i c (w.pending ++ (farewell answer i qs).flatMap Turn.reply)
  | last (w : Writer) : c.stage = .writing w .carryOn → w.isDone = false →
      c.peerClosed = true → c.machine.isWriteClosed = true → Leaving answer i c w.pending
  | gone : c.stage = .over (.closed .peerClosed) → Leaving answer i c []

theorem Remains.canRead_eq (h : Remains answer i qs c) : c.canRead = false := by
  unfold canRead Machine.wantsRead
  rw [h.phase]
  rfl

theorem Remains.jobs_ne_nil (h : Remains answer i qs c) (hne : qs ≠ []) : c.jobs ≠ [] := by
  rintro hj
  apply hne
  rw [← h.jobs, hj]
  rfl

theorem Remains.fire?_eq (h : Remains answer i qs c) : c.timer.fire? c.now = none := by
  unfold IdleTimer.fire?
  rw [h.unarmed]

/-- The stage and the clock are no part of it. -/
theorem Remains.aside (h : Remains answer i qs c) (now : Nat) (stage : Stage) :
    Remains answer i qs { c with now, stage } :=
  { h with }

theorem Remains.call (h : Remains answer i qs c) {request : Request} {jobs : List Job}
    (hcall : callFirst c.jobs = some (request, jobs)) : Remains answer i qs { c with jobs } := by
  obtain ⟨hmap, hfin⟩ := callFirst_eq hcall
  refine { h with jobs := hmap.trans h.jobs, finished := ?_ }
  intro place job outcome hjob hstate
  exact h.finished place job outcome (hfin place job outcome hjob hstate) hstate

theorem Remains.finish (h : Remains answer i qs c) {place : Nat} {outcome : Outcome}
    {jobs : List Job} (hfinish : finishAt c.jobs place outcome = some jobs)
    (hback : outcome = .answered (answer (i + place))) :
    Remains answer i qs { c with jobs } := by
  obtain ⟨hmap, hfin⟩ := finishAt_eq hfinish
  refine { h with jobs := hmap.trans h.jobs, finished := ?_ }
  intro other job o hjob hstate
  rcases hfin other job o hjob hstate with heq | hold
  · cases heq
    exact hback
  · exact h.finished other job o hold hstate

/-- The oldest request that remains is answered: the connection closes with
it, or the others remain. -/
theorem Remains.respond (h : Remains answer i qs c) {request : Request} {outcome : Outcome}
    {jobs : List Job} (hjobs : c.jobs = ⟨request, .finished outcome⟩ :: jobs) :
    Leaving answer (i + 1) ({ c with jobs }.respond outcome)
        ((farewell answer i qs).flatMap Turn.reply) ∧
      ({ c with jobs }.respond outcome).jobs = jobs := by
  obtain rfl : outcome = .answered (answer i) :=
    h.finished 0 _ outcome (by rw [hjobs]; rfl) rfl
  obtain rfl : request :: jobs.map Job.request = qs := by
    rw [← h.jobs, hjobs]
    rfl
  have howed := h.owed
  rw [List.map_cons] at howed
  have hfit := h.fits i (Nat.le_refl i) (Nat.lt_add_of_pos_right (Nat.succ_pos _))
  have hclose : c.machine.closesAfter request.exchange (answer i).headers
      = ((jobs.map Job.request).isEmpty || !request.keepAlive || (answer i).headers.asksClose) := by
    unfold Machine.closesAfter
    rw [h.phase, howed]
    cases jobs <;> rfl
  have hsend := Machine.sendResponse_of_fit h.outbound howed hfit hclose
  let turn (close : Bool) : Turn := ⟨.request request, ⟨answer i, .carryOn⟩, close⟩
  have pending (close : Bool) : (Writer.ofBytes (turn close).reply).isDone = false :=
    List.isEmpty_eq_false_iff.2 (turn close).reply_ne_nil
  rw [respond_eq]
  show Leaving _ _ (Connection.beginWrite _ (answer i) .carryOn) _ ∧
    (Connection.beginWrite _ (answer i) .carryOn).jobs = jobs
  unfold beginWrite
  dsimp only
  rw [hsend]
  dsimp only
  refine ⟨?_, rfl⟩
  cases hc : (jobs.map Job.request).isEmpty || !request.keepAlive
      || (answer i).headers.asksClose with
  | true =>
      rw [farewell_closing hc, List.flatMap_singleton]
      exact .last (.ofBytes (turn true).reply) rfl (pending true) h.peerClosed rfl
  | false =>
      rw [farewell_going hc, List.flatMap_cons]
      simp only [Bool.or_eq_false_iff] at hc
      refine .between (.ofBytes (turn false).reply) (jobs.map Job.request) rfl (pending false)
        (List.isEmpty_eq_false_iff.1 hc.1.1) ?_
      refine { h with owed := ?_, jobs := rfl, fits := ?_, finished := ?_ }
      · show c.machine.owed.drop 1 = _
        rw [howed]
        rfl
      · intro k hle hlt
        refine h.fits k (Nat.le_of_succ_le hle) ?_
        rw [List.length_cons]
        omega
      · intro place job o hjob hstate
        rw [Nat.add_assoc, Nat.add_comm 1 place]
        exact h.finished (place + 1) job o (by rw [hjobs]; exact hjob) hstate

-- ============================================================ every step

/-- What a stimulus has cost a connection that leaves. -/
structure Pays (c : Connection) (left : Bytes) (s : Stimulus) (c' : Connection)
    (es : List Effect) (left' : Bytes) : Prop where
  written_eq : written es ++ left' = left
  effort_le : (if s.isTick then 0 else 1) + effort c'.jobs + left'.length
    ≤ effort c.jobs + left.length

/-- What is pending is paid for with the bytes that are taken of it. -/
theorem pays_write {w rest : Writer} {reply : WriteReply} {taken more : Bytes}
    (hoffer : w.offer reply = .ok (taken, rest)) (hw : w.isDone = false)
    (hjobs : effort c'.jobs ≤ effort c.jobs) :
    Pays c (w.pending ++ more) (.write reply) c' [.wrote taken] (rest.pending ++ more) := by
  have hpending := Writer.pending_of_offer hoffer
  have htaken : 0 < taken.length := by
    cases reply with
    | fail message => cases hoffer
    | accept limit =>
        cases limit with
        | zero => cases hoffer
        | succ limit =>
            cases hoffer
            have hpos := List.length_pos_iff.2 (List.isEmpty_eq_false_iff.1 hw)
            rw [List.length_take]
            omega
  refine ⟨?_, ?_⟩
  · rw [← hpending, List.append_assoc]
    show taken ++ [] ++ _ = _
    rw [List.append_nil]
  · rw [← hpending]
    simp only [Stimulus.isTick, List.length_append, Bool.false_eq_true, if_false]
    omega

/-- A step that writes nothing is paid for by the requests. -/
theorem pays_step (hw : written es = [])
    (hjobs : (if s.isTick then 0 else 1) + effort c'.jobs ≤ effort c.jobs) (left : Bytes) :
    Pays c left s c' es left :=
  ⟨by rw [hw, List.nil_append], Nat.add_le_add_right hjobs left.length⟩

/-- Time costs nothing. -/
theorem pays_tick (c : Connection) (ms : Nat) (left : Bytes) :
    Pays c left (.tick ms) { c with now := c.now + ms } [] left :=
  pays_step rfl (Nat.le_of_eq (Nat.zero_add _)) left

theorem add_answers_of_ne (i : Nat) (h : s ≠ .answer) : i + answers [s] = i := by
  have hone := answers_concat [] s
  rw [if_neg h] at hone
  rw [← List.nil_append [s], hone]
  rfl

theorem leaving_of_waiting (hstage : c.stage = .waiting) (hne : qs ≠ [])
    (h : Remains answer i qs c) (ha : AttendsWaiting c s c' es) (hcalls : s ≠ .callPanics)
    (hback : ∀ p ∈ returnedFrom i [s], p.2 = .answered (answer p.1)) :
    ∃ left', Leaving answer (i + answers [s]) c' left' ∧
      Pays c ((farewell answer i qs).flatMap Turn.reply) s c' es left' := by
  cases ha with
  | read data hc => cases h.canRead_eq.symm.trans hc
  | readEnd hc => cases h.canRead_eq.symm.trans hc
  | readFault message hc => cases h.canRead_eq.symm.trans hc
  | call _ hcall =>
      rw [add_answers_of_ne (s := .call) i nofun]
      refine ⟨_, .waiting qs hstage hne (h.call hcall), pays_step rfl ?_ _⟩
      exact Nat.le_of_eq ((Nat.add_comm 1 _).trans (effort_callFirst hcall))
  | callPanics => exact absurd rfl hcalls
  | @finish place outcome jobs hfinish =>
      have houtcome := hback (i + place, outcome) (List.mem_singleton.2 rfl)
      rw [add_answers_of_ne (s := .finish place outcome) i nofun]
      refine ⟨_, .waiting qs hstage hne (h.finish hfinish houtcome), pays_step rfl ?_ _⟩
      exact Nat.le_of_eq ((Nat.add_comm 1 _).trans (effort_finishAt hfinish))
  | @answer request outcome jobs hjobs =>
      obtain ⟨hleaving, hrest⟩ := h.respond hjobs
      refine ⟨_, hleaving, pays_step rfl ?_ _⟩
      rw [hrest, hjobs, effort]
      exact Nat.le_refl _
  | expired hfire => cases h.fire?_eq.symm.trans hfire
  | stale hfire => cases h.fire?_eq.symm.trans hfire
  | tick ms =>
      rw [add_answers_of_ne (s := .tick ms) i nofun]
      exact ⟨_, .waiting qs hstage hne (h.aside (c.now + ms) c.stage), pays_tick c ms _⟩

/-- A response that has been written in full is followed by the next, once
that has come back. -/
theorem Remains.afterWrite_eq (h : Remains answer i qs c) (hne : qs ≠ []) :
    c.afterWrite .carryOn = { c with stage := .waiting } := by
  have hjobs := h.jobs_ne_nil hne
  have hopen : c.machine.isWriteClosed = false := by
    unfold Machine.isWriteClosed
    rw [h.outbound]
    rfl
  have hbusy : c.armIfIdle = c := by
    unfold armIfIdle
    rw [not_isIdle_of_jobs hjobs, if_neg Bool.false_ne_true]
  have hsettled : c.isSettled = false := List.isEmpty_eq_false_iff.2 hjobs
  unfold afterWrite
  rw [hopen, if_neg Bool.false_ne_true, hbusy]
  unfold proceed
  rw [hsettled, if_neg Bool.false_ne_true]

theorem leaving_of_between {w : Writer} (hstage : c.stage = .writing w .carryOn)
    (hw : w.isDone = false) (hne : qs ≠ []) (h : Remains answer i qs c)
    (ha : AttendsWriting c w .carryOn s c' es) (hclean : s.isFault = false) :
    ∃ left', Leaving answer i c' left' ∧
      Pays c (w.pending ++ (farewell answer i qs).flatMap Turn.reply) s c' es left' := by
  cases ha with
  | cut he => cases (isFault_of_offer he).symm.trans hclean
  | part hoffer hmore =>
      exact ⟨_, .between _ qs rfl hmore hne (h.aside c.now _),
        pays_write hoffer hw (Nat.le_refl _)⟩
  | @last rest reply taken hoffer hdone =>
      rw [h.afterWrite_eq hne]
      have hpays : Pays c (w.pending ++ (farewell answer i qs).flatMap Turn.reply) (.write reply)
          { c with stage := .waiting } [.wrote taken]
          (rest.pending ++ (farewell answer i qs).flatMap Turn.reply) :=
        pays_write hoffer hw (Nat.le_refl _)
      rw [List.isEmpty_iff.1 hdone, List.nil_append] at hpays
      exact ⟨_, .waiting qs rfl hne (h.aside c.now .waiting), hpays⟩
  | tick ms =>
      exact ⟨_, .between w qs hstage hw hne (h.aside (c.now + ms) c.stage), pays_tick c ms _⟩

theorem leaving_of_last {w : Writer} (hstage : c.stage = .writing w .carryOn)
    (hw : w.isDone = false) (hp : c.peerClosed = true) (hclosed : c.machine.isWriteClosed = true)
    (ha : AttendsWriting c w .carryOn s c' es) (hclean : s.isFault = false) :
    ∃ left', Leaving answer i c' left' ∧ Pays c w.pending s c' es left' := by
  rw [← List.append_nil w.pending]
  cases ha with
  | cut he => cases (isFault_of_offer he).symm.trans hclean
  | @part rest reply taken hoffer hmore =>
      refine ⟨rest.pending ++ [], ?_, pays_write hoffer hw (Nat.le_refl _)⟩
      rw [List.append_nil]
      exact .last rest rfl hmore hp hclosed
  | @last rest reply taken hoffer hdone =>
      have hover : c.afterWrite .carryOn = c.endWith (.closed .peerClosed) := by
        unfold afterWrite lastEnding
        rw [hclosed, if_pos rfl, hp]
        rfl
      rw [hover]
      have hpays : Pays c (w.pending ++ []) (.write reply) (c.endWith (.closed .peerClosed))
          [.wrote taken] (rest.pending ++ []) := pays_write hoffer hw (Nat.zero_le _)
      rw [List.isEmpty_iff.1 hdone] at hpays
      exact ⟨_, .gone rfl, hpays⟩
  | tick ms =>
      refine ⟨w.pending ++ [], ?_, pays_tick c ms _⟩
      rw [List.append_nil]
      exact .last w hstage hw hp hclosed

/-- Every step of a connection that leaves takes it nearer to the end,
unless only time passes. -/
theorem Leaving.step (h : Leaving answer i c left) (hs : c.step s = some (c', es))
    (hclean : s.isFault = false) (hcalls : s ≠ .callPanics)
    (hback : ∀ p ∈ returnedFrom i [s], p.2 = .answered (answer p.1)) :
    ∃ left', Leaving answer (i + answers [s]) c' left' ∧ Pays c left s c' es left' := by
  cases h with
  | waiting qs hstage hne hr =>
      exact leaving_of_waiting hstage hne hr (attends_of_waiting hstage hs) hcalls hback
  | between w qs hstage hw hne hr =>
      have ha := attends_of_writing hstage hs
      rw [add_answers_of_ne i ha.quiet.ne_answer]
      exact leaving_of_between hstage hw hne hr ha hclean
  | last w hstage hw hp hclosed =>
      have ha := attends_of_writing hstage hs
      rw [add_answers_of_ne i ha.quiet.ne_answer]
      exact leaving_of_last hstage hw hp hclosed ha hclean
  | gone hstage => cases (step_of_over hstage s).symm.trans hs

/-- A connection that leaves and is not over has a next step: bytes are
taken, a request is handed over or comes back, or one is answered. -/
theorem Leaving.attends (h : Leaving answer i c left)
    (hopen : ∀ ending, c.stage ≠ .over ending) :
    ∃ s, s.isFault = false ∧ s.isTick = false ∧ s ≠ .callPanics ∧
      (∀ p ∈ returnedFrom i [s], p.2 = .answered (answer p.1)) ∧ (c.step s).isSome = true := by
  have write {w : Writer} (hstage : c.stage = .writing w .carryOn) :
      (c.step (.write (.accept 1))).isSome = true := by
    unfold Connection.step
    rw [hstage]
    rfl
  have none (s : Stimulus) (hs : returnedFrom i [s] = []) :
      ∀ p ∈ returnedFrom i [s], p.2 = .answered (answer p.1) := by
    rw [hs]
    intro p hp
    cases hp
  cases h with
  | between w qs hstage => exact ⟨.write (.accept 1), rfl, rfl, by simp, none _ rfl, write hstage⟩
  | last w hstage => exact ⟨.write (.accept 1), rfl, rfl, by simp, none _ rfl, write hstage⟩
  | gone hstage => exact absurd hstage (hopen _)
  | waiting qs hstage hne hr =>
      obtain ⟨⟨request, state⟩, jobs, hjobs⟩ := List.exists_cons_of_ne_nil (hr.jobs_ne_nil hne)
      cases state with
      | queued =>
          refine ⟨.call, rfl, rfl, by simp, none _ rfl, ?_⟩
          rw [step_of_waiting hstage]
          simp [stepWaiting, hasAnswer, hjobs, callFirst]
      | called =>
          refine ⟨.finish 0 (.answered (answer i)), rfl, rfl, by simp, ?_, ?_⟩
          · intro p hp
            rw [List.mem_singleton.1 hp]
            rfl
          · rw [step_of_waiting hstage]
            simp [stepWaiting, finishAt, hjobs]
      | finished outcome =>
          refine ⟨.answer, rfl, rfl, by simp, none _ rfl, ?_⟩
          rw [step_of_waiting hstage]
          simp [stepWaiting, hjobs]

theorem Leaving.eq_of_over {ending : Ending} (h : Leaving answer i c left)
    (ho : c.stage = .over ending) : ending = .closed .peerClosed ∧ left = [] := by
  cases h with
  | waiting qs hstage => cases ho.symm.trans hstage
  | between w qs hstage => cases ho.symm.trans hstage
  | last w hstage => cases ho.symm.trans hstage
  | gone hstage =>
      cases ho.symm.trans hstage
      exact ⟨rfl, rfl⟩

-- ============================================================= every run

/-- What each step pays adds up over a run. -/
theorem Leaving.run {ss : List Stimulus} (h : Leaving answer i c left)
    (hrun : c.run ss = some (c', es)) (hclean : ∀ s ∈ ss, s.isFault = false)
    (hcalls : .callPanics ∉ ss)
    (hback : ∀ p ∈ returnedFrom i ss, p.2 = .answered (answer p.1)) :
    ∃ left', Leaving answer (i + answers ss) c' left' ∧ written es ++ left' = left ∧
      ss.countP (fun s => !s.isTick) + effort c'.jobs + left'.length
        ≤ effort c.jobs + left.length := by
  induction ss generalizing c i es left with
  | nil =>
      cases hrun
      exact ⟨left, h, rfl, Nat.le_of_eq (by rw [List.countP_nil, Nat.zero_add])⟩
  | cons s ss ih =>
      rw [Connection.run] at hrun
      obtain ⟨⟨next, first⟩, hstep, hrun⟩ := Option.bind_eq_some_iff.1 hrun
      obtain ⟨⟨last, later⟩, hrest, heq⟩ := Option.bind_eq_some_iff.1 hrun
      cases heq
      rw [show s :: ss = [s] ++ ss from rfl, returnedFrom_append] at hback
      obtain ⟨hfirst, hcalls⟩ := not_or.1 (mt List.mem_cons.2 hcalls)
      obtain ⟨mid, hmid, hpays⟩ := h.step hstep (hclean s List.mem_cons_self)
        (Ne.symm hfirst) fun p hp => hback p (List.mem_append_left _ hp)
      obtain ⟨left', hleft, hwritten, heffort⟩ := ih hmid hrest
        (fun s hs => hclean s (List.mem_cons_of_mem _ hs)) hcalls
        fun p hp => hback p (List.mem_append_right _ hp)
      refine ⟨left', ?_, ?_, ?_⟩
      · rw [show s :: ss = [s] ++ ss from rfl, answers_append, ← Nat.add_assoc]
        exact hleft
      · rw [written_append, List.append_assoc, hwritten, hpays.written_eq]
      · have hfirst := hpays.effort_le
        rw [List.countP_cons]
        cases ht : s.isTick with
        | true =>
            rw [ht] at hfirst
            simp only [if_true, Bool.not_true, Bool.false_eq_true, if_false] at hfirst ⊢
            omega
        | false =>
            rw [ht] at hfirst
            simp only [Bool.false_eq_true, if_false, Bool.not_false, if_true] at hfirst ⊢
            omega

end Connection

end WireHttp
