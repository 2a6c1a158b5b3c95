/-
When the idle timer runs. A connection that waits has armed it if it is
idle, and only then; one that writes has not (`Watched`). So the timer
never fires on a connection that is busy, and one that is idle is never
forgotten.

Idleness begins with an activity: bytes have been read that start no
message, or a response has been completed and nothing else is under way;
and before any activity with the start. That is when the timer is armed,
so the arming is due, by the clock, when one that was set at the latest
activity to take the timeout is (`Watched.deadline`), whatever happens in
between. A clock that keeps the timeout puts that one timeout after the
activity.

What is left is to see that no other stimulus makes a connection idle, or
busy. Handing a request over and its coming back leave it unanswered. The
end of the stream leaves nothing to be read, which is not idleness: the
connection is then over, or busy (`Tracks.readEnd_eq`).
-/
import WireHttp.Proofs.Connection.Order
import WireHttp.Proofs.Connection.Stops

namespace WireHttp

namespace Connection

-- ============================================================= activity

/-- Whether the connection is active with a stimulus: bytes are read, or
a response is completed. -/
def isActive (c : Connection) (s : Stimulus) : Bool :=
  match c.stage, s with
  | .waiting, s => !s.data.isEmpty
  | .writing writer _, .write reply =>
    match writer.offer reply with
    | .ok (_, rest) => rest.isDone
    | .error _ => false
  | _, _ => false

/-- The latest instant at which the connection was active in a run, or
the one given if it never was. -/
def lastActive (c : Connection) (latest : Nat) : List Stimulus → Nat
  | [] => latest
  | s :: ss =>
    match c.step s with
    | some (next, _) => next.lastActive (if c.isActive s then c.now else latest) ss
    | none => latest

theorem lastActive_concat {c₀ c c' : Connection} {latest : Nat} {ss : List Stimulus}
    {es es' : List Effect} {s : Stimulus} (h : c₀.run ss = some (c, es))
    (hs : c.step s = some (c', es')) :
    c₀.lastActive latest (ss ++ [s])
      = if c.isActive s then c.now else c₀.lastActive latest ss := by
  induction ss generalizing c₀ latest es with
  | nil =>
      cases h
      simp only [List.nil_append, lastActive, hs]
  | cons first ss ih =>
      rw [run] at h
      obtain ⟨⟨next, effects⟩, hstep, h⟩ := Option.bind_eq_some_iff.1 h
      obtain ⟨⟨last, later⟩, hrun, heq⟩ := Option.bind_eq_some_iff.1 h
      cases heq
      rw [List.cons_append, lastActive, lastActive, hstep]
      dsimp only
      rw [ih hrun]

-- ============================================================== the timer

/-- What holds of the timer of a connection that was last active at the
instant `latest`. -/
structure Watched (settings : Settings) (latest : Nat) (c : Connection) : Prop where
  waiting : c.stage = .waiting → c.timer.isArmed = c.isIdle
  writing : ∀ writer next, c.stage = .writing writer next → c.timer.armed? = none
  deadline : ∀ arming, c.timer.armed? = some arming →
    arming.deadline = settings.clock.due latest settings.idleTimeout

variable {settings : Settings} {ss : List Stimulus} {es es' : List Effect}
  {c c' : Connection} {s : Stimulus} {n latest : Nat}

/-- Without a live arming there is nothing to watch, unless the connection
waits. -/
theorem Watched.of_unarmed (ht : c.timer.armed? = none) (hs : c.stage ≠ .waiting) :
    Watched settings latest c :=
  ⟨fun h => absurd h hs, fun _ _ _ => ht, fun arming h => by cases ht.symm.trans h⟩

theorem watched_endWith (c : Connection) (ending : Ending) :
    Watched settings latest (c.endWith ending) :=
  .of_unarmed rfl nofun

theorem watched_beginWrite (ht : c.timer.armed? = none) (r : Response) (next : AfterWrite) :
    Watched settings latest (c.beginWrite r next) := by
  unfold beginWrite
  split
  · exact .of_unarmed ht nofun
  · exact watched_endWith _ _

theorem armed?_of_isIdle (h : c.timer.isArmed = c.isIdle) (hi : c.isIdle = false) :
    c.timer.armed? = none := by
  rw [hi] at h
  exact Option.not_isSome_iff_eq_none.1 (Bool.eq_false_iff.1 h)

theorem isIdle_iff : c.isIdle = true ↔ c.machine.isIdle = true ∧ c.jobs = [] := by
  unfold isIdle isSettled
  rw [Bool.and_eq_true, List.isEmpty_iff]

theorem not_isIdle_of_jobs (h : c.jobs ≠ []) : c.isIdle = false := by
  rw [← Bool.not_eq_true, isIdle_iff]
  exact fun hi => h hi.2

theorem not_isIdle_of_owed (h : c.machine.owed ≠ []) : c.isIdle = false := by
  rw [← Bool.not_eq_true, isIdle_iff, Machine.isIdle_iff]
  exact fun hi => h hi.1.2.2.1

theorem not_isIdle_of_closing (h : c.machine.phase = .closing) : c.isIdle = false := by
  rw [← Bool.not_eq_true, isIdle_iff, Machine.isIdle_iff, h]
  exact fun hi => nomatch hi.1.1

-- ============================================================ the moves

/-- A connection that goes on keeps its timer. -/
theorem Tracks.watched_proceed (h : Tracks settings ss n c) (ht : c.timer.isArmed = c.isIdle)
    (hd : ∀ arming, c.timer.armed? = some arming →
      arming.deadline = settings.clock.due latest settings.idleTimeout) :
    Watched settings latest c.proceed := by
  have hwait : Watched settings latest { c with stage := .waiting } := ⟨fun _ => ht, nofun, hd⟩
  have hp := c.proceeds
  generalize c.proceed = c' at hp
  cases hp with
  | waits => exact hwait
  | refuses e _ hr =>
      have hbusy := not_isIdle_of_owed (h.owed_ne_nil (by simp [hr]))
      exact watched_beginWrite (c := { c with refused := none }) (armed?_of_isIdle ht hbusy) _ _
  | ends => exact watched_endWith _ _

/-- The timer starts after an activity that leaves the connection idle. -/
theorem Tracks.watched_resume (h : Tracks settings ss n c) (ht : c.timer.armed? = none) :
    Watched settings c.now c.armIfIdle.proceed := by
  refine h.armIfIdle.watched_proceed ?_ ?_
  · unfold Connection.armIfIdle
    split
    · next hi => exact hi.symm
    · next hi =>
      unfold IdleTimer.isArmed
      rw [ht]
      exact (Bool.eq_false_iff.2 hi).symm
  · intro arming ha
    unfold Connection.armIfIdle at ha
    split at ha
    · cases ha
      rw [h.settings_eq]
    · cases ht.symm.trans ha

/-- What is read does not touch the clock or the timer. -/
theorem drain_clock (c : Connection) : c.drain.timer = c.timer ∧ c.drain.now = c.now := by
  have hframe := observeAll_frame { c with machine := c.machine.drain.2 } c.machine.drain.1
  exact ⟨hframe.timer, hframe.now⟩

/-- The end of the stream: a connection that was idle is over, and another
stays busy. -/
theorem Tracks.watched_readEnd (h : Tracks settings ss n c) (hc : c.canRead = true)
    (hw : c.timer.isArmed = c.isIdle) : Watched settings latest c.afterReadEnd := by
  have htracks := h.readEnd hc
  unfold afterReadEnd
  split
  · exact watched_endWith _ _
  · rw [h.readEnd_eq hc] at htracks ⊢
    cases hi : c.isIdle with
    | true =>
        -- nothing is kept, and nothing more is read: the connection is over
        obtain ⟨hidle, hjobs⟩ := isIdle_iff.1 hi
        have howed := h.owed_length
        have hnone : c.refused = none := by
          rw [(Machine.isIdle_iff.1 hidle).2.2.1, hjobs] at howed
          simpa using howed.symm
        unfold proceed isSettled
        dsimp only
        rw [hjobs, hnone]
        exact watched_endWith _ _
    | false =>
        -- the timer does not run, and must not: a closing machine is not idle
        have hunarmed := armed?_of_isIdle hw hi
        refine htracks.watched_proceed ?_ (fun arming ha => by cases hunarmed.symm.trans ha)
        rw [not_isIdle_of_closing rfl, ← hi]
        exact hw

-- ============================================================= the steps

/-- Requests that are kept move on, and the connection is as busy as
before. -/
theorem Watched.keep {jobs : List Job} (h : Watched settings latest c)
    (hj : jobs.map Job.request = c.jobs.map Job.request) :
    Watched settings latest { c with jobs } := by
  have hidle : { c with jobs }.isIdle = c.isIdle := by
    unfold isIdle isSettled
    dsimp only
    rw [← List.isEmpty_map (f := Job.request), hj, List.isEmpty_map]
  refine ⟨fun hs => ?_, h.writing, h.deadline⟩
  rw [hidle]
  exact h.waiting hs

/-- A timer that fires finds the connection idle. -/
theorem Watched.isIdle_of_fire? {timer : IdleTimer} {token : Nat}
    (h : Watched settings latest c) (hw : c.stage = .waiting)
    (hf : c.timer.fire? c.now = some (token, timer)) : c.isIdle = true := by
  obtain ⟨arming, ha, -⟩ := IdleTimer.fire?_eq_some_iff.1 hf
  rw [← h.waiting hw]
  unfold IdleTimer.isArmed
  rw [ha]
  rfl

theorem isActive_of_waiting (hw : c.stage = .waiting) (s : Stimulus) :
    c.isActive s = !s.data.isEmpty := by
  unfold isActive
  rw [hw]

/-- A connection that waits stays watched. -/
theorem Tracks.watched (h : Tracks settings ss n c) (hw : Watched settings latest c)
    (hstage : c.stage = .waiting) (ha : AttendsWaiting c s c' es') :
    Watched settings (if c.isActive s then c.now else latest) c' := by
  rw [isActive_of_waiting hstage]
  cases ha with
  | read data hc hne =>
      rw [show (Stimulus.read data).data = data from rfl, List.isEmpty_eq_false_iff.2 hne]
      -- the timer was cancelled before the bytes were taken up
      obtain ⟨ht, hn⟩ := drain_clock
        { c with timer := c.timer.cancel, machine := c.machine.receive data }
      have hresumed := (h.read hc data).watched_resume (congrArg IdleTimer.armed? ht)
      rw [hn] at hresumed
      exact hresumed
  | readEnd hc => exact h.watched_readEnd hc (hw.waiting hstage)
  | readFault message => exact watched_endWith _ _
  | call _ hcall => exact hw.keep (callFirst_eq hcall).1
  | callPanics => exact ⟨nofun, nofun, hw.deadline⟩
  | finish hfinish => exact hw.keep (finishAt_eq hfinish).1
  | @answer request outcome jobs hjobs =>
      have hne : c.jobs ≠ [] := by
        rw [hjobs]
        nofun
      have hunarmed := armed?_of_isIdle (hw.waiting hstage) (not_isIdle_of_jobs hne)
      rw [respond_eq]
      exact watched_beginWrite (c := { c with jobs }) hunarmed _ _
  | expired => exact watched_endWith _ _
  | stale hfire hi => cases hi.symm.trans (hw.isIdle_of_fire? hstage hfire)
  | tick ms => exact ⟨hw.waiting, hw.writing, hw.deadline⟩

/-- So does one that writes, which completes a response with the last of
its bytes. -/
theorem watched_of_writing {t : Turn} {w : Writer} (hstage : c.stage = .writing w t.reaction.next)
    (hw : Watched settings latest c) (hgo : t.GoesOn → Tracks settings ss n c)
    (hclose : c.machine.isWriteClosed = t.close)
    (ha : AttendsWriting c w t.reaction.next s c' es') :
    Watched settings (if c.isActive s then c.now else latest) c' := by
  have hunarmed := hw.writing _ _ hstage
  cases ha with
  | cut => exact watched_endWith _ _
  | part => exact .of_unarmed hunarmed nofun
  | @last rest reply taken hoffer hdone =>
      have hactive : c.isActive (.write reply) = true := by
        unfold isActive
        rw [hstage]
        dsimp only
        rw [hoffer]
        exact hdone
      rw [hactive, if_pos rfl]
      rcases afterWrite_eq hclose with ⟨hgoes, heq⟩ | ⟨-, heq⟩
      · rw [heq]
        exact (hgo hgoes).watched_resume hunarmed
      · rw [heq]
        exact watched_endWith _ _
  | tick ms => exact .of_unarmed hunarmed (by rw [hstage]; nofun)

/-- Every step keeps a connection watched. -/
theorem watched_step (hl : Ledger settings ss c es) (hw : Watched settings latest c)
    (hs : c.step s = some (c', es')) :
    Watched settings (if c.isActive s then c.now else latest) c' := by
  cases hl with
  | waiting log hstage htracks =>
      exact htracks.watched hw hstage (attends_of_waiting hstage hs)
  | writing log t sent w hstage ht ha hsent hp hclose hgo =>
      exact watched_of_writing hstage hw hgo hclose (attends_of_writing hstage hs)
  | finished log part ending hstage => cases (step_of_over hstage s).symm.trans hs
  | unwound log hstage => cases (step_of_unwound hstage s).symm.trans hs

theorem watched_start (settings : Settings) : Watched settings 0 (start settings) := by
  refine ((tracks_start settings).aside
    (IdleTimer.arm {} 0 settings.idleTimeout settings.clock) 0 .waiting).watched_proceed rfl ?_
  intro arming ha
  cases ha
  rfl

/-- At every moment of a run the connection is watched. -/
theorem watched {settings : Settings} {ss : List Stimulus} {c : Connection} {es : List Effect}
    (h : (start settings).run ss = some (c, es)) :
    Watched settings ((start settings).lastActive 0 ss) c := by
  refine run_induction (P := fun ss c _ =>
    Watched settings ((start settings).lastActive 0 ss) c) (watched_start settings) ?_ h
  intro ss c es s c' es' hrun hw hs
  rw [lastActive_concat hrun hs]
  exact watched_step (ledger hrun) hw hs

-- ============================================================ timing out

/-- What holds of a connection that has been closed for being idle. -/
structure TimedOut (settings : Settings) (ss : List Stimulus) (c : Connection)
    (es : List Effect) : Prop where
  /-- It has not been active for the timeout, if that is how long the timer
  takes by the clock. -/
  elapsed : settings.clock.Keeps settings.idleTimeout →
    (start settings).lastActive 0 ss + settings.idleTimeout ≤ c.now
  /-- Nothing has arrived of a request that is not complete. -/
  noPartial : c.machine.hasPartialMessage = false
  /-- Everything that was to be answered has been, in full. -/
  answered : ∃ turns, WrittenWhole settings.limits ss es turns ∧
    turns.length = (items settings.limits (received ss)).length

/-- Only the timer closes a connection for being idle. -/
theorem idle_of_stops (h : Stops c s (.closed .idleTimeout)) :
    s = .timer ∧ c.stage = .waiting := by
  generalize he : Ending.closed .idleTimeout = ending at h
  cases h with
  | idle hw => exact ⟨rfl, hw⟩
  | exhausted s peerClosed => cases peerClosed <;> cases he
  | written t peerClosed hstage hf =>
      generalize t.item = item, t.reaction.next = next at hstage hf he
      cases hf with
      | answered => cases peerClosed <;> cases he
      | _ => cases he
  | cut t message hstage hf =>
      generalize t.item = item, t.reaction.next = next at hstage hf he
      cases hf <;> cases he
  | _ => cases he

/-- Where the timer closes a connection, the timeout has passed and all
items are answered. -/
theorem timedOut_step (hrun : (start settings).run ss = some (c, es))
    (hs : c.step s = some (c', es')) (ho : c'.stage = .over (.closed .idleTimeout)) :
    TimedOut settings (ss ++ [s]) c' (es ++ es') := by
  have hw := watched hrun
  obtain ⟨rfl, hstage⟩ := idle_of_stops (stops (ledger hrun) hs ho)
  have hlatest : (start settings).lastActive 0 (ss ++ [.timer])
      = (start settings).lastActive 0 ss := by
    rw [lastActive_concat hrun hs, isActive_of_waiting hstage]
    rfl
  cases attends_of_waiting hstage hs with
  | stale hfire hi => cases hi.symm.trans (hw.isIdle_of_fire? hstage hfire)
  | expired hfire hi =>
      obtain ⟨arming, ha, hdue, -⟩ := IdleTimer.fire?_eq_some_iff.1 hfire
      obtain ⟨-, hpartial, howed, -⟩ := Machine.isIdle_iff.1 (isIdle_iff.1 hi).1
      refine ⟨?_, hpartial, ?_⟩
      · intro hkeeps
        rw [hlatest]
        rw [hw.deadline arming ha, hkeeps] at hdue
        exact hdue
      · cases ledger hrun with
        | waiting log _ htracks hanswered =>
            refine ⟨log, ?_, ?_⟩
            · rw [List.append_nil]
              exact (hanswered.mono (List.prefix_append ss _)).writtenWhole
            · rw [htracks.machine_eq, owed_after, List.map_eq_nil_iff, List.drop_eq_nil_iff]
                at howed
              rw [received_concat, show Stimulus.timer.data = [] from rfl, List.append_nil]
              exact Nat.le_antisymm htracks.le_items howed
        | writing log t sent w hwriting => cases hstage.symm.trans hwriting
        | finished log part ending hover => cases hstage.symm.trans hover
        | unwound log hover => cases hstage.symm.trans hover

end Connection

/-- How the idle timer of a connection with this history stands. -/
structure Timed (settings : Settings) (ss : List Stimulus) (c : Connection)
    (es : List Effect) : Prop where
  /-- While the connection waits, the timer is armed exactly if the
  connection is idle. -/
  armed : c.stage = .waiting →
    (c.timer.isArmed = true ↔ c.machine.isIdle = true ∧ c.jobs = [])
  /-- The timer is never stale: when it fires, the connection closes. -/
  fires : ∀ c' es', c.step .timer = some (c', es') → c'.stage = .over (.closed .idleTimeout)
  timedOut : c.stage = .over (.closed .idleTimeout) → Connection.TimedOut settings ss c es

/-- At every moment of every run the idle timer runs exactly while the
connection is idle, and only after the timeout, as the clock keeps it, is
the connection closed. -/
theorem timer_runs_while_idle {settings : Settings} {ss : List Stimulus} {c : Connection}
    {es : List Effect} (h : (Connection.start settings).run ss = some (c, es)) :
    Timed settings ss c es := by
  have hw := Connection.watched h
  refine ⟨?_, ?_, ?_⟩
  · intro hstage
    rw [hw.waiting hstage]
    exact Connection.isIdle_iff
  · intro c' es' hs
    rcases Connection.attends hs with ⟨hstage, ha⟩ | ⟨_, _, _, ha⟩
    · cases ha with
      | expired => rfl
      | stale hfire hi => cases hi.symm.trans (hw.isIdle_of_fire? hstage hfire)
    · cases ha
  · refine Connection.run_induction (P := fun ss c es =>
      c.stage = .over (.closed .idleTimeout) → Connection.TimedOut settings ss c es) ?_ ?_ h
    · nofun
    · intro ss c es s c' es' hrun _ hs ho
      exact Connection.timedOut_step hrun hs ho

/-- A request is answered, in two pieces, and then a blank line comes and
half of another: 5000 milliseconds later the connection is closed. -/
theorem timer_runs_while_idle_blank :
    ∃ (ss : List Stimulus) (c : Connection) (es : List Effect),
      (Connection.start {}).run ss = some (c, es) ∧
        c.stage = .over (.closed .idleTimeout) ∧ c.now = 10006 ∧
        (Connection.start {}).lastActive 0 ss = 5006 ∧ Timed {} ss c es ∧
        (Connection.start {}).lastActive 0 ss + 5000 ≤ c.now := by
  obtain ⟨ss, hss⟩ : ∃ ss : List Stimulus, ss =
      [.tick 7, .read (Text.Utf8.encode "GET / HTTP/1.1\r\n\r\n"), .call,
        .finish 0 (.answered (.ok [97])), .answer, .write (.accept 5), .write (.accept 100),
        .tick 4999, .read [13, 10, 13], .tick 5000, .timer] := ⟨_, rfl⟩
  have hrun : ((Connection.start {}).run ss).map (fun last => (last.1.stage, last.1.now))
      = some (.over (.closed .idleTimeout), 10006) := by
    rw [hss]
    decide +kernel
  have hlatest : (Connection.start {}).lastActive 0 ss = 5006 := by
    rw [hss]
    decide +kernel
  obtain ⟨⟨c, es⟩, hrun, heq⟩ := Option.map_eq_some_iff.1 hrun
  obtain ⟨hstage, hnow⟩ := Prod.mk.inj heq
  have htimed := timer_runs_while_idle hrun
  exact ⟨ss, c, es, hrun, hstage, hnow, hlatest, htimed,
    (htimed.timedOut hstage).elapsed (Clock.keeps_usual (by decide))⟩

end WireHttp
