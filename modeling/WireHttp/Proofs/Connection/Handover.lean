/-
What is handed over. The requests that are handed over to be answered are
the first of those whose end the machine of the connection has reported,
in the order in which they arrived, each of them once; and those lie in
the stream one after the other, each whole (`called_in_order`). So nothing
is handed over of a request that was refused or cut short, or that came
after one that none may follow.

A request is kept from its end until its answer. Those that are kept have
been handed over up to some place, and from there on they have not
(`Split`): a request that arrives is put at the back, the next one to be
handed over is the first that was not, and the one that is answered is
taken off the front, which was handed over before. That place, counted
from the first request of all, is the number of those handed over.
-/
import WireHttp.Proofs.Connection.Ledger
import WireHttp.Proofs.Machine.Layout

namespace WireHttp

-- ================================================== what has been observed

/-- The request that an effect hands over. -/
def Effect.request? : Effect → Option Request
  | called r => some r
  | wrote _ => none

/-- The requests that have been handed over. -/
def called (es : List Effect) : List Request :=
  es.filterMap Effect.request?

theorem called_append (es es' : List Effect) : called (es ++ es') = called es ++ called es' :=
  List.filterMap_append

namespace Connection

/-- The events that the machine brings when the connection attends to a
stimulus. -/
def brings (c : Connection) : Stimulus → List Event
  | .read data => (c.machine.receive data).drain.1
  | .readEnd => if c.machine.hasPartialMessage then [] else c.machine.receiveEof.drain.1
  | _ => []

/-- The events that the machine brings over a run. -/
def events (c : Connection) : List Stimulus → List Event
  | [] => []
  | s :: ss =>
    match c.step s with
    | some (next, _) => c.brings s ++ next.events ss
    | none => []

theorem events_concat {c₀ c c' : Connection} {ss : List Stimulus} {es es' : List Effect}
    {s : Stimulus} (h : c₀.run ss = some (c, es)) (hs : c.step s = some (c', es')) :
    c₀.events (ss ++ [s]) = c₀.events ss ++ c.brings s := by
  induction ss generalizing c₀ es with
  | nil =>
      cases h
      simp only [List.nil_append, events, hs, List.append_nil]
  | cons first ss ih =>
      rw [run] at h
      obtain ⟨⟨next, effects⟩, hstep, h⟩ := Option.bind_eq_some_iff.1 h
      obtain ⟨⟨last, later⟩, hrun, heq⟩ := Option.bind_eq_some_iff.1 h
      cases heq
      rw [List.cons_append, events, events, hstep]
      dsimp only
      rw [ih hrun, List.append_assoc]

-- =========================================================== what is kept

/-- The requests that are kept have been handed over up to some place,
and from there on they have not. Counted from the first request of all,
`n` of which are no longer kept, the place is `k`. -/
def Split (n k : Nat) (jobs : List Job) : Prop :=
  ∃ taken queued, jobs = taken ++ queued ∧ (∀ job ∈ taken, job.state ≠ .queued) ∧
    (∀ job ∈ queued, job.state = .queued) ∧ n + taken.length = k

theorem Split.append {n k : Nat} {jobs more : List Job} (h : Split n k jobs)
    (hm : ∀ job ∈ more, job.state = .queued) : Split n k (jobs ++ more) := by
  obtain ⟨taken, queued, rfl, ht, hq, hk⟩ := h
  refine ⟨taken, queued ++ more, List.append_assoc _ _ _, ht, ?_, hk⟩
  intro job hjob
  rcases List.mem_append.1 hjob with hjob | hjob
  · exact hq job hjob
  · exact hm job hjob

theorem callFirst_append {taken : List Job} (h : ∀ job ∈ taken, job.state ≠ .queued)
    (rest : List Job) :
    callFirst (taken ++ rest) = (callFirst rest).map fun p => (p.1, taken ++ p.2) := by
  induction taken with
  | nil =>
      cases hr : callFirst rest with
      | none => rw [List.nil_append, hr]; rfl
      | some p => rw [List.nil_append, hr]; rfl
  | cons job taken ih =>
      rw [List.cons_append, callFirst, if_neg (h job List.mem_cons_self),
        ih fun j hj => h j (List.mem_cons_of_mem _ hj), Option.map_map]
      rfl

/-- The request that is handed over is the one at the place. -/
theorem Split.call {n k : Nat} {jobs jobs' : List Job} {request : Request} (h : Split n k jobs)
    (hc : callFirst jobs = some (request, jobs')) :
    Split n (k + 1) jobs' ∧ ∃ i, n + i = k ∧ (jobs.map Job.request)[i]? = some request := by
  obtain ⟨taken, queued, rfl, ht, hq, hk⟩ := h
  rw [callFirst_append ht] at hc
  cases queued with
  | nil => cases hc
  | cons job queued =>
      rw [callFirst, if_pos (hq job List.mem_cons_self)] at hc
      cases hc
      refine ⟨⟨taken ++ [{ job with state := .called }], queued, ?_, ?_, ?_, ?_⟩,
        taken.length, hk, ?_⟩
      · rw [List.append_assoc]
        rfl
      · intro j hj
        rcases List.mem_append.1 hj with hj | hj
        · exact ht j hj
        · rw [List.mem_singleton.1 hj]
          nofun
      · exact fun j hj => hq j (List.mem_cons_of_mem _ hj)
      · rw [List.length_append, List.length_singleton]
        omega
      · rw [List.map_append, List.getElem?_append_right (Nat.le_of_eq (List.length_map _)),
          List.length_map, Nat.sub_self]
        rfl

/-- Only a request that was handed over comes back. -/
theorem Split.finish {n k place : Nat} {jobs jobs' : List Job} {outcome : Outcome}
    (h : Split n k jobs) (hf : finishAt jobs place outcome = some jobs') : Split n k jobs' := by
  obtain ⟨taken, queued, rfl, ht, hq, hk⟩ := h
  unfold finishAt at hf
  split at hf
  · next job hjob =>
    split at hf
    · next hcalled =>
      cases hf
      have hlt : place < taken.length := by
        apply Nat.lt_of_not_le
        intro hle
        rw [List.getElem?_append_right hle] at hjob
        rw [hq job (List.mem_of_getElem? hjob)] at hcalled
        cases hcalled
      refine ⟨taken.set place { job with state := .finished outcome }, queued,
        List.set_append_left _ _ hlt, ?_, hq, by rw [List.length_set]; exact hk⟩
      intro j hj
      rcases List.mem_or_eq_of_mem_set hj with hj | rfl
      · exact ht j hj
      · nofun
    · cases hf
  · cases hf

/-- The request that is answered was handed over. -/
theorem Split.answer {n k : Nat} {job : Job} {jobs : List Job} (h : Split n k (job :: jobs))
    (hj : job.state ≠ .queued) : Split (n + 1) k jobs := by
  obtain ⟨taken, queued, heq, ht, hq, hk⟩ := h
  cases taken with
  | nil =>
      rw [List.nil_append] at heq
      exact absurd (hq job (heq ▸ List.mem_cons_self)) hj
  | cons first taken =>
      rw [List.cons_append] at heq
      obtain ⟨rfl, rfl⟩ := List.cons.inj heq
      refine ⟨taken, queued, rfl, fun j hj => ht j (List.mem_cons_of_mem _ hj), hq, ?_⟩
      rw [List.length_cons] at hk
      omega

theorem observe_jobs (c : Connection) (e : Event) :
    ∃ more, (c.observe e).jobs = c.jobs ++ more ∧ ∀ job ∈ more, job.state = .queued := by
  have none_new {c' : Connection} (h : c'.jobs = c.jobs) :
      ∃ more, c'.jobs = c.jobs ++ more ∧ ∀ job ∈ more, job.state = .queued :=
    ⟨[], h.trans (List.append_nil _).symm, nofun⟩
  cases e with
  | messageEnd =>
      unfold observe
      cases c.assembly with
      | none => exact none_new rfl
      | some a =>
          refine ⟨[{ request := a.request }], rfl, ?_⟩
          intro job hjob
          rw [List.mem_singleton.1 hjob]
  | _ => exact none_new rfl

theorem Split.observeAll {n k : Nat} {c : Connection} (h : Split n k c.jobs) (es : List Event) :
    Split n k (es.foldl observe c).jobs := by
  induction es generalizing c with
  | nil => exact h
  | cons e es ih =>
      apply ih
      obtain ⟨more, heq, hm⟩ := c.observe_jobs e
      rw [heq]
      exact h.append hm

theorem Split.drain {n k : Nat} {c : Connection} (h : Split n k c.jobs) : Split n k c.drain.jobs :=
  Split.observeAll (c := { c with machine := c.machine.drain.2 }) h _

-- ========================================================= what is left alone

/-- The connection is over, or it keeps the requests that it kept. -/
def Retains (c c' : Connection) : Prop :=
  (∃ ending, c'.stage = .over ending) ∨ c'.jobs = c.jobs

theorem retains_endWith (c : Connection) (ending : Ending) : Retains c (c.endWith ending) :=
  Or.inl ⟨ending, rfl⟩

theorem retains_beginWrite (c : Connection) (r : Response) (next : AfterWrite) :
    Retains c (c.beginWrite r next) := by
  unfold beginWrite
  split
  · exact Or.inr rfl
  · exact Or.inl ⟨_, rfl⟩

theorem retains_proceed (c : Connection) : Retains c c.proceed := by
  have hp := c.proceeds
  generalize c.proceed = c' at hp
  cases hp with
  | waits => exact Or.inr rfl
  | refuses => exact retains_beginWrite { c with refused := none } _ _
  | ends => exact retains_endWith c _

theorem armIfIdle_jobs (c : Connection) : c.armIfIdle.jobs = c.jobs := by
  unfold armIfIdle
  split
  · rfl
  · rfl

theorem retains_resume (c : Connection) : Retains c c.armIfIdle.proceed := by
  have h := retains_proceed c.armIfIdle
  unfold Retains at h
  rwa [armIfIdle_jobs] at h

theorem retains_afterWrite (c : Connection) (next : AfterWrite) :
    Retains c (c.afterWrite next) := by
  rcases c.afterWrite_cases next with ⟨-, -, heq⟩ | ⟨ending, heq⟩
  · rw [heq]
    exact retains_resume c
  · rw [heq]
    exact retains_endWith c ending

theorem Retains.split {c c' : Connection} {n k : Nat} (h : Retains c c')
    (hs : Split n k c.jobs) : (∃ ending, c'.stage = .over ending) ∨ Split n k c'.jobs := by
  rcases h with ho | hj
  · exact Or.inl ho
  · rw [hj]
    exact Or.inr hs

-- ============================================================= invariant

/-- What has been handed over by a connection whose machine has brought
these events, and that goes on. -/
structure Going (settings : Settings) (ss : List Stimulus) (events : List Event) (c : Connection)
    (es : List Effect) : Prop where
  first : called es <+: (Tally.noteAll {} events).requests
  noted : Tally.noteAll {} events = tallied settings.limits ss
  split : Split (answers ss) (called es).length c.jobs

/-- What has been handed over by a connection whose machine has brought
these events. -/
inductive Handed (settings : Settings) (ss : List Stimulus) (events : List Event) (c : Connection)
    (es : List Effect) : Prop
  | going : Going settings ss events c es → Handed settings ss events c es
  | stopped : (∃ ending, c.stage = .over ending) →
      called es <+: (Tally.noteAll {} events).requests →
      (Tally.noteAll {} events).requests = (tallied settings.limits ss).requests →
      Handed settings ss events c es

variable {settings : Settings} {ss : List Stimulus} {events more : List Event}
  {c c' : Connection} {es es' : List Effect} {s : Stimulus} {n : Nat}

/-- A connection follows the events that its machine brings, and hands
nothing over. -/
theorem Going.follow (h : Going settings ss events c es)
    (hn : (tallied settings.limits ss).noteAll more = tallied settings.limits (ss ++ [s]))
    (hc : called es' = [])
    (hj : (∃ ending, c'.stage = .over ending) ∨
      Split (answers (ss ++ [s])) (called es).length c'.jobs) :
    Handed settings (ss ++ [s]) (events ++ more) c' (es ++ es') := by
  have hnoted : Tally.noteAll {} (events ++ more) = tallied settings.limits (ss ++ [s]) := by
    rw [Tally.noteAll_append, h.noted, hn]
  have hfirst : called (es ++ es') <+: (Tally.noteAll {} (events ++ more)).requests := by
    rw [called_append, hc, List.append_nil, Tally.noteAll_append]
    exact h.first.trans (Tally.requests_prefix_noteAll _ more)
  rcases hj with ho | hs
  · exact .stopped ho hfirst (congrArg Tally.requests hnoted)
  · refine .going ⟨hfirst, hnoted, ?_⟩
    rw [called_append, hc, List.append_nil]
    exact hs

/-- What is read is drained at once, and what that completes is kept. -/
theorem Going.drained {d : Connection} (h : Going settings ss events c es)
    (ht : Tracks settings ss n c) (he : ended ss = false) (hs : s ≠ .answer)
    (hm : d.machine = c.machine.arrive s.data (s == .readEnd)) (hj : d.jobs = c.jobs)
    (hr : Retains d.drain c') :
    Handed settings (ss ++ [s]) (events ++ d.machine.drain.1) c' (es ++ []) := by
  have hnoted := (drain_after settings.limits ht.le_items he s).2
  rw [← ht.machine_eq, ← hm] at hnoted
  refine h.follow hnoted rfl ?_
  rw [answers_concat, if_neg hs, Nat.add_zero]
  apply hr.split
  apply Split.drain
  rw [hj]
  exact h.split

/-- That the stream has ended completes no request. -/
theorem requests_tallied_readEnd (limits : Limits) (he : ended ss = false) :
    (tallied limits (ss ++ [.readEnd])).requests = (tallied limits ss).requests := by
  unfold tallied
  rw [received_concat, ended_concat, he]
  show (Machine.tally limits (received ss ++ []) true).requests = _
  rw [List.append_nil]
  rcases Machine.tally_told limits (received ss) true with ht | ht
  · rw [ht]
  · rw [ht]
    rfl

theorem Going.readEnd (h : Going settings ss events c es) (ht : Tracks settings ss n c)
    (he : ended ss = false) :
    Handed settings (ss ++ [.readEnd]) (events ++ c.brings .readEnd) c.afterReadEnd (es ++ []) := by
  unfold brings afterReadEnd
  dsimp only
  by_cases hp : c.machine.hasPartialMessage = true
  · rw [if_pos hp, if_pos hp, List.append_nil, List.append_nil]
    refine .stopped ⟨_, rfl⟩ h.first ?_
    rw [h.noted, requests_tallied_readEnd settings.limits he]
  · have hm : c.machine.receiveEof
        = c.machine.arrive Stimulus.readEnd.data (Stimulus.readEnd == .readEnd) := by
      rw [beq_self_eq_true, Machine.arrive_true]
      show _ = (c.machine.receive []).receiveEof
      rw [Machine.receive_nil]
    rw [if_neg hp, if_neg hp]
    exact h.drained (d := { c with machine := c.machine.receiveEof }) ht he (by simp) hm rfl
      (retains_proceed _)

/-- The request that is handed over is the one after those that have been,
whether or not the call panics. -/
theorem Going.call {request : Request} {jobs : List Job} (h : Going settings ss events c es)
    (ht : Tracks settings ss n c) (hc : callFirst c.jobs = some (request, jobs))
    (hs : s = .call ∨ s = .callPanics) (stage : Stage) :
    Handed settings (ss ++ [s]) (events ++ []) { c with jobs, stage }
      (es ++ [.called request]) := by
  obtain ⟨hsplit, i, hi, hget⟩ := h.split.call hc
  obtain ⟨hd, he, hne⟩ : s.data = [] ∧ s ≠ .readEnd ∧ s ≠ .answer := by
    rcases hs with rfl | rfl
    · exact ⟨rfl, nofun, nofun⟩
    · exact ⟨rfl, nofun, nofun⟩
  have hstill := tallied_concat settings.limits ss hd he
  rw [List.append_nil]
  refine .going ⟨?_, h.noted.trans hstill.symm, ?_⟩
  · rw [called_append]
    apply prefix_concat h.first
    rw [ht.mirrors.jobs, List.getElem?_drop, ← ht.answers_eq, hi, ← h.noted] at hget
    exact hget
  · rw [answers_concat, if_neg hne, Nat.add_zero, called_append, List.length_append]
    exact hsplit

/-- A connection that waits keeps to what has been handed over. -/
theorem Going.waiting (h : Going settings ss events c es) (ht : Tracks settings ss n c)
    (hs : AttendsWaiting c s c' es') :
    Handed settings (ss ++ [s]) (events ++ c.brings s) c' (es ++ es') := by
  have still (hd : s.data = []) (he : s ≠ .readEnd) :
      (tallied settings.limits ss).noteAll [] = tallied settings.limits (ss ++ [s]) :=
    (tallied_concat settings.limits ss hd he).symm
  have same (hne : s ≠ .answer) : answers (ss ++ [s]) = answers ss := by
    rw [answers_concat, if_neg hne, Nat.add_zero]
  cases hs with
  | read data hc =>
      exact h.drained (d := { c with
        timer := c.timer.cancel
        machine := c.machine.receive data }) ht (ht.ended_eq hc) nofun rfl rfl
        (retains_resume _)
  | readEnd hc => exact h.readEnd ht (ht.ended_eq hc)
  | readFault message => exact h.follow (still rfl nofun) rfl (Or.inl ⟨_, rfl⟩)
  | call _ hcall => exact h.call ht hcall (Or.inl rfl) c.stage
  | callPanics _ hcall => exact h.call ht hcall (Or.inr rfl) .unwound
  | finish hfinish =>
      refine h.follow (still rfl nofun) rfl (Or.inr ?_)
      rw [same nofun]
      exact h.split.finish hfinish
  | answer hjobs =>
      have hsplit := h.split
      rw [hjobs] at hsplit
      refine h.follow (still rfl nofun) rfl ?_
      rw [answers_concat, if_pos rfl, respond_eq]
      exact (retains_beginWrite _ _ _).split (hsplit.answer nofun)
  | expired => exact h.follow (still rfl nofun) rfl (Or.inl ⟨_, rfl⟩)
  | stale =>
      refine h.follow (still rfl nofun) rfl ?_
      rw [same nofun]
      exact (retains_proceed _).split h.split
  | tick ms =>
      refine h.follow (still rfl nofun) rfl (Or.inr ?_)
      rw [same nofun]
      exact h.split

/-- So does one that writes, which hands nothing over. -/
theorem Going.writing {w : Writer} {next : AfterWrite} (h : Going settings ss events c es)
    (hs : AttendsWriting c w next s c' es') :
    Handed settings (ss ++ [s]) (events ++ []) c' (es ++ es') := by
  have hq := hs.quiet
  have hstill := tallied_concat settings.limits ss hq.data hq.ne_readEnd
  obtain ⟨hcalled, hr⟩ : called es' = [] ∧ Retains c c' := by
    cases hs with
    | cut => exact ⟨rfl, retains_endWith c _⟩
    | part => exact ⟨rfl, Or.inr rfl⟩
    | last => exact ⟨rfl, retains_afterWrite c next⟩
    | tick => exact ⟨rfl, Or.inr rfl⟩
  refine h.follow hstill.symm hcalled ?_
  rw [answers_concat, if_neg hq.ne_answer, Nat.add_zero]
  exact hr.split h.split

/-- Every stimulus that is attended to keeps to what has been handed over. -/
theorem Handed.step (h : Handed settings ss events c es) (hl : Ledger settings ss c es)
    (hs : c.step s = some (c', es')) :
    Handed settings (ss ++ [s]) (events ++ c.brings s) c' (es ++ es') := by
  cases h with
  | stopped ho =>
      obtain ⟨ending, ho⟩ := ho
      cases (step_of_over ho s).symm.trans hs
  | going h =>
      cases hl with
      | waiting log hstage ht => exact h.waiting ht (attends_of_waiting hstage hs)
      | writing log t sent w hstage =>
          have ha := attends_of_writing hstage hs
          have hnone : c.brings s = [] := by
            cases ha <;> rfl
          rw [hnone]
          exact h.writing ha
      | finished log part ending hstage => cases (step_of_over hstage s).symm.trans hs
      | unwound log hstage => cases (step_of_unwound hstage s).symm.trans hs

/-- Every run keeps to what has been handed over. -/
theorem handed (h : (Connection.start settings).run ss = some (c, es)) :
    Handed settings ss ((Connection.start settings).events ss) c es := by
  refine run_induction (P := fun ss c es =>
    Handed settings ss ((Connection.start settings).events ss) c es) ?_ ?_ h
  · refine .going ⟨List.nil_prefix, (tallied_nil settings.limits).symm, ?_⟩
    exact ⟨[], [], rfl, nofun, nofun, rfl⟩
  · intro ss c es s c' es' hrun hh hs
    rw [events_concat hrun hs]
    exact hh.step (ledger hrun) hs

end Connection

/-- At every moment of every run, the requests that have been handed over
are the first of those whose end the machine has reported, in the order of
their arrival and each of them once; and those are requests that the
stream holds whole, one after the other, none of them after one that none
may follow. -/
theorem called_in_order {settings : Settings} {ss : List Stimulus} {c : Connection}
    {es : List Effect} (h : (Connection.start settings).run ss = some (c, es)) :
    called es <+: (Tally.noteAll {} ((Connection.start settings).events ss)).requests ∧
      ∃ rest, Holds settings.limits (received ss)
        (Tally.noteAll {} ((Connection.start settings).events ss)).requests rest := by
  have hholds := holds_tally settings.limits (received ss) (ended ss)
  cases Connection.handed h with
  | going hg =>
      rw [hg.noted]
      exact ⟨hg.noted ▸ hg.first, hholds⟩
  | stopped ho hfirst hnoted =>
      rw [hnoted]
      exact ⟨hnoted ▸ hfirst, hholds⟩

/-- A request whose body comes in two pieces, one after which none may
follow, and a third. -/
theorem called_in_order_closing :
    ∃ (ss : List Stimulus) (c : Connection) (es : List Effect),
      (Connection.start {}).run ss = some (c, es) ∧
        (called es).map (fun r => (r.target, r.body)) = [("/a", [71, 69]), ("/b", [])] ∧
        called es <+: (Tally.noteAll {} ((Connection.start {}).events ss)).requests ∧
          ∃ rest, Holds {} (received ss)
            (Tally.noteAll {} ((Connection.start {}).events ss)).requests rest := by
  have hrun : ((Connection.start {}).run
      [.read (Text.Utf8.encode "POST /a HTTP/1.1\r\nContent-Length: 2\r\n\r\nG"), .tick 7,
        .read (Text.Utf8.encode "E\r\nGET /b HTTP/1.0\r\n\r\nGET /c HTTP/1.1\r\n\r\n"), .call,
        .finish 0 (.answered (.ok [97])), .answer, .write (.accept 500), .call]).map
      (fun last => (called last.2).map fun r => (r.target, r.body))
        = some [("/a", [71, 69]), ("/b", [])] := by
    decide +kernel
  obtain ⟨⟨c, es⟩, hrun, hcalled⟩ := Option.map_eq_some_iff.1 hrun
  exact ⟨_, c, es, hrun, hcalled, called_in_order hrun⟩

end WireHttp
