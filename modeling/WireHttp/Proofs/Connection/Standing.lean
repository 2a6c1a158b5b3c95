/-
Where a connection stands that goes on. As long as no answer has ended
it, all that it holds is settled by its history: the machine is the one
that took up the bytes received, with the answers taken off what it owes
(`after`), and the requests it keeps are those of the stream that are not
yet answered (`Mirrors`). `Tracks` says both, and every stimulus that a
waiting connection attends to keeps it.

What is owed to requests already answered is no part of the machine any
more, but the receiving half never looks at it (`drain_owing`); and that
the bytes came in pieces makes no difference (`intake_append`). So the
machine of a connection may be thought of as one that received the whole
stream at once and answered nothing, less its first answers.
-/
import WireHttp.Proofs.Connection.History
import WireHttp.Proofs.Machine.Items
import WireHttp.Proofs.Machine.Reply

namespace WireHttp

namespace Machine

-- ==================================================== answers taken off

theorem served_served (m : Machine) (n k : Nat) : (m.served n).served k = m.served (n + k) := by
  unfold served
  rw [List.drop_drop]

theorem arrive_served (m : Machine) (n : Nat) (data : Bytes) (told : Bool) :
    (m.served n).arrive data told = (m.arrive data told).served n := by
  by_cases hc : m.phase = .closing
  · rw [arrive_of_closing hc, arrive_of_closing (m := m.served n) hc]
    rfl
  · rw [arrive_of_open hc, arrive_of_open (m := m.served n) hc]
    rfl

/-- Draining does not depend on the answers that have been given. -/
theorem drain_served {m : Machine} (hv : m.Valid) {n : Nat} (hn : n ≤ m.owed.length) :
    (m.served n).drain = (m.drain.1, m.drain.2.served n) := by
  have hback : (m.served n).owing (m.owed.take n) = m := by
    unfold owing served
    dsimp only
    rw [List.take_append_drop]
  have h := drain_owing (m := m.served n) (hv.congr rfl rfl) (m.owed.take n)
  rw [hback] at h
  have hlast : ((m.served n).drain.2.owing (m.owed.take n)).served n = (m.served n).drain.2 := by
    unfold owing served
    dsimp only
    rw [List.drop_append_of_le_length (by simp [hn]), List.drop_take_self, List.nil_append]
  rw [h]
  show _ = ((m.served n).drain.1, ((m.served n).drain.2.owing (m.owed.take n)).served n)
  rw [hlast]

/-- More bytes arrive on a machine that has answered some of its
requests. -/
theorem drain_arrive_served (limits : Limits) (a b : Bytes) (told : Bool) {n : Nat}
    (hn : n ≤ (items limits a).length) :
    (((intake limits a false).2.served n).arrive b told).drain.2
        = (intake limits (a ++ b) told).2.served n ∧
      (tally limits a false).noteAll
          (((intake limits a false).2.served n).arrive b told).drain.1
        = tally limits (a ++ b) told := by
  have ht := (tallied_intake limits a false).arrive b told
  have hlen : n ≤ ((intake limits a false).2.arrive b told).owed.length := by
    rw [ht.owed, List.length_map]
    exact hn
  rw [arrive_served, drain_served ht.valid hlen]
  exact ⟨congrArg (·.served n) (intake_append limits a b told).machine.symm,
    (tally_append limits a b told).symm⟩

end Machine

-- ============================================================ the machine

/-- The machine of a connection that has this history and has answered
`n` items, none of them with its last answer. -/
def after (limits : Limits) (ss : List Stimulus) (n : Nat) : Machine :=
  (Machine.intake limits (received ss) (ended ss)).2.served n

/-- What the bytes of a history amount to. -/
def tallied (limits : Limits) (ss : List Stimulus) : Tally :=
  Machine.tally limits (received ss) (ended ss)

theorem items_tallied (limits : Limits) (ss : List Stimulus) :
    (tallied limits ss).items = items limits (received ss) :=
  Machine.items_tally limits (received ss) (ended ss)

theorem owed_after (limits : Limits) (ss : List Stimulus) (n : Nat) :
    (after limits ss n).owed = ((items limits (received ss)).drop n).map Item.exchange := by
  show (Machine.intake limits (received ss) (ended ss)).2.owed.drop n = _
  rw [(Machine.tallied_intake limits (received ss) (ended ss)).owed, ← List.map_drop,
    Machine.items_tally]

theorem outbound_after (limits : Limits) (ss : List Stimulus) (n : Nat) :
    (after limits ss n).outbound = .idle :=
  Machine.outbound_intake limits (received ss) (ended ss)

theorem eof_after (limits : Limits) (ss : List Stimulus) (n : Nat) :
    (after limits ss n).eof = ended ss :=
  Machine.eof_intake limits (received ss) (ended ss)

namespace Connection

-- ========================================================= the requests

/-- What a connection holds of the requests that have been noted in `t`,
when `n` of them are answered and outcomes have come back as `back`
says. -/
structure Mirrors (t : Tally) (n : Nat) (back : List (Nat × Outcome)) (c : Connection) : Prop where
  le : n ≤ t.requests.length
  arriving : c.assembly.map Assembly.request = t.arriving
  jobs : c.jobs.map Job.request = t.requests.drop n
  refused : c.refused = t.refused
  peerClosed : c.peerClosed = t.peerClosed
  finished : ∀ (place : Nat) (job : Job) (outcome : Outcome), c.jobs[place]? = some job →
    job.state = .finished outcome → (n + place, outcome) ∈ back

/-- To observe an event is to note it. -/
theorem Mirrors.observe {t : Tally} {n : Nat} {back : List (Nat × Outcome)} {c : Connection}
    (h : Mirrors t n back c) (e : Event) : Mirrors (t.note e) n back (c.observe e) := by
  cases e with
  | head head => exact { h with arriving := rfl }
  | chunk data =>
      refine { h with arriving := ?_ }
      show (c.assembly.map (·.add data)).map Assembly.request = t.arriving.map _
      rw [← h.arriving, Option.map_map, Option.map_map]
      cases c.assembly with
      | none => rfl
      | some a => simp [Assembly.request, Assembly.add, Assembly.body]
  | messageEnd =>
      unfold Connection.observe Tally.note
      rw [← h.arriving]
      cases ha : c.assembly with
      | none =>
          have harr := h.arriving
          rw [ha] at harr
          refine { h with arriving := ?_ }
          rw [ha]
          exact harr
      | some a =>
          refine { h with le := ?_, arriving := rfl, jobs := ?_, finished := ?_ }
          · show n ≤ (t.requests ++ [a.request]).length
            rw [List.length_append]
            exact Nat.le_add_right_of_le h.le
          · show (c.jobs ++ [({ request := a.request } : Job)]).map Job.request
              = (t.requests ++ [a.request]).drop n
            rw [List.map_append, h.jobs, List.drop_append_of_le_length h.le]
            rfl
          · intro place job outcome hjob hstate
            change (c.jobs ++ [({ request := a.request } : Job)])[place]? = some job at hjob
            rcases getElem?_concat hjob with hjob | ⟨-, rfl⟩
            · exact h.finished place job outcome hjob hstate
            · cases hstate
  | peerClosed => exact { h with peerClosed := rfl }
  | rejected e => exact { h with arriving := rfl, refused := rfl }

theorem Mirrors.observeAll {t : Tally} {n : Nat} {back : List (Nat × Outcome)} {c : Connection}
    (h : Mirrors t n back c) (es : List Event) :
    Mirrors (t.noteAll es) n back (es.foldl Connection.observe c) := by
  induction es generalizing t c with
  | nil => exact h
  | cons e es ih => exact ih (h.observe e)

/-- What observing events leaves alone. -/
structure SameSetting (c c' : Connection) : Prop where
  settings : c'.settings = c.settings
  machine : c'.machine = c.machine
  timer : c'.timer = c.timer
  now : c'.now = c.now

theorem observe_frame (c : Connection) (e : Event) : SameSetting c (c.observe e) := by
  cases e with
  | messageEnd =>
      unfold observe
      cases c.assembly with
      | none => exact ⟨rfl, rfl, rfl, rfl⟩
      | some a => exact ⟨rfl, rfl, rfl, rfl⟩
  | _ => exact ⟨rfl, rfl, rfl, rfl⟩

theorem observeAll_frame (c : Connection) (es : List Event) :
    SameSetting c (es.foldl observe c) := by
  induction es generalizing c with
  | nil => exact ⟨rfl, rfl, rfl, rfl⟩
  | cons e es ih =>
      have hfirst := c.observe_frame e
      have hrest := ih (c.observe e)
      exact ⟨hrest.settings.trans hfirst.settings, hrest.machine.trans hfirst.machine,
        hrest.timer.trans hfirst.timer, hrest.now.trans hfirst.now⟩

-- ============================================================ the whole

/-- What a connection holds, apart from its machine, that has answered
`n` items and goes on. -/
structure Awaits (settings : Settings) (ss : List Stimulus) (n : Nat) (c : Connection) : Prop where
  settings_eq : c.settings = settings
  answers_eq : answers ss = n
  mirrors : Mirrors (tallied settings.limits ss) n (returned ss) c

/-- Where a connection stands that has answered `n` items and goes on. -/
structure Tracks (settings : Settings) (ss : List Stimulus) (n : Nat) (c : Connection) : Prop
    extends Awaits settings ss n c where
  machine_eq : c.machine = after settings.limits ss n

variable {settings : Settings} {ss : List Stimulus} {n : Nat} {c : Connection}

theorem Awaits.le_items (h : Awaits settings ss n c) :
    n ≤ (items settings.limits (received ss)).length := by
  have hle := h.mirrors.le
  rw [← items_tallied]
  unfold Tally.items
  rw [List.length_append, List.length_map]
  omega

/-- The machine, the clock, the timer and the stage are no part of it. -/
theorem Awaits.aside (h : Awaits settings ss n c) (machine : Machine) (timer : IdleTimer)
    (now : Nat) (stage : Stage) : Awaits settings ss n { c with machine, timer, now, stage } :=
  ⟨h.settings_eq, h.answers_eq, ⟨h.mirrors.le, h.mirrors.arriving, h.mirrors.jobs,
    h.mirrors.refused, h.mirrors.peerClosed, h.mirrors.finished⟩⟩

theorem Tracks.aside (h : Tracks settings ss n c) (timer : IdleTimer) (now : Nat) (stage : Stage) :
    Tracks settings ss n { c with timer, now, stage } :=
  ⟨h.toAwaits.aside c.machine timer now stage, h.machine_eq⟩

theorem Tracks.armIfIdle (h : Tracks settings ss n c) : Tracks settings ss n c.armIfIdle := by
  unfold Connection.armIfIdle
  split
  · exact h.aside _ c.now c.stage
  · exact h

theorem intake_nil (limits : Limits) :
    Machine.intake limits [] false = ([], Machine.start limits) :=
  Machine.drain_of_none
    ((Machine.polls_iff (.start limits)).1 (.waits (.between (Or.inl rfl) (Or.inl rfl)) rfl))

theorem tallied_nil (limits : Limits) : tallied limits [] = {} := by
  show Tally.noteAll {} (Machine.intake limits [] false).1 = {}
  rw [intake_nil]
  rfl

theorem tracks_start (settings : Settings) :
    Tracks settings [] 0 { settings, machine := .start settings.limits, timer := {} } := by
  refine ⟨⟨rfl, rfl, ?_⟩, ?_⟩
  · rw [tallied_nil]
    exact ⟨Nat.le_refl _, rfl, rfl, rfl, rfl, fun _ _ _ hjob => by cases hjob⟩
  · show _ = (Machine.intake settings.limits [] false).2.served 0
    rw [intake_nil]
    rfl

/-- What arrives next is noted, and the machine stands where it then
does. -/
theorem drain_after (limits : Limits) {ss : List Stimulus} {n : Nat}
    (hn : n ≤ (items limits (received ss)).length) (he : ended ss = false) (s : Stimulus) :
    ((after limits ss n).arrive s.data (s == .readEnd)).drain.2 = after limits (ss ++ [s]) n ∧
      (tallied limits ss).noteAll
          ((after limits ss n).arrive s.data (s == .readEnd)).drain.1
        = tallied limits (ss ++ [s]) := by
  have h := Machine.drain_arrive_served limits (received ss) s.data (s == .readEnd) hn
  unfold after tallied
  rw [received_concat, ended_concat, he, Bool.false_or]
  exact h

/-- The end of the stream, while more could have come, is all that there
is to say, and nothing more is read. -/
theorem drain_receiveEof_after (limits : Limits) {ss : List Stimulus} {n : Nat}
    (hn : n ≤ (items limits (received ss)).length) (he : ended ss = false)
    (hc : (after limits ss n).phase ≠ .closing) :
    (after limits ss n).receiveEof.drain
      = ([.peerClosed], (after limits ss n).receiveEof.enterClosing) := by
  have ht := Machine.tallied_intake limits (received ss) false
  have hlen : n ≤ (Machine.intake limits (received ss) false).2.receiveEof.owed.length := by
    show n ≤ (Machine.intake limits (received ss) false).2.owed.length
    rw [ht.owed, List.length_map]
    exact hn
  unfold after at hc ⊢
  rw [he] at hc ⊢
  rcases Machine.atRest_intake limits (received ss) false with hclosing | ⟨m, hs⟩
  · exact absurd hclosing hc
  · have hserved := Machine.drain_served ht.valid.receiveEof hlen
    rw [Machine.drain_receiveEof_of_starved ht.valid hs] at hserved
    exact hserved

/-- Bytes or the end of the stream arrive, and what they amount to is
observed. -/
theorem Awaits.drain (h : Awaits settings ss n c) (he : ended ss = false) {s : Stimulus}
    (hs : (∃ data, s = .read data) ∨ s = .readEnd)
    (hm : c.machine = (after settings.limits ss n).arrive s.data (s == .readEnd)) :
    Tracks settings (ss ++ [s]) n c.drain := by
  obtain ⟨hmachine, htally⟩ := drain_after settings.limits h.le_items he s
  rw [← hm] at hmachine htally
  have hquiet : s ≠ .answer ∧ returnedFrom (answers ss) [s] = [] := by
    rcases hs with ⟨data, rfl⟩ | rfl
    · exact ⟨nofun, rfl⟩
    · exact ⟨nofun, rfl⟩
  have hm₀ := h.mirrors
  have hm₁ : Mirrors _ n (returned ss) { c with machine := c.machine.drain.2 } :=
    { hm₀ with }
  have hm₂ := hm₁.observeAll c.machine.drain.1
  rw [htally] at hm₂
  have hframe := observeAll_frame { c with machine := c.machine.drain.2 } c.machine.drain.1
  refine ⟨⟨hframe.settings.trans h.settings_eq, ?_, ?_⟩, hframe.machine.trans hmachine⟩
  · rw [answers_concat, if_neg hquiet.1, Nat.add_zero]
    exact h.answers_eq
  · rw [returned_concat, hquiet.2, List.append_nil]
    exact hm₂

/-- A stimulus that brings neither bytes nor the end, and neither answers
nor returns a request. -/
structure Quiet (s : Stimulus) : Prop where
  data : s.data = []
  ne_readEnd : s ≠ .readEnd
  ne_answer : s ≠ .answer
  returned : ∀ k, returnedFrom k [s] = []

theorem tallied_concat {s : Stimulus} (limits : Limits) (ss : List Stimulus) (hd : s.data = [])
    (he : s ≠ .readEnd) : tallied limits (ss ++ [s]) = tallied limits ss := by
  unfold tallied
  rw [received_concat, ended_concat, hd, List.append_nil, beq_false_of_ne he, Bool.or_false]

theorem after_concat {s : Stimulus} (limits : Limits) (ss : List Stimulus) (n : Nat)
    (hd : s.data = []) (he : s ≠ .readEnd) : after limits (ss ++ [s]) n = after limits ss n := by
  unfold after
  rw [received_concat, ended_concat, hd, List.append_nil, beq_false_of_ne he, Bool.or_false]

theorem Awaits.quiet (h : Awaits settings ss n c) {s : Stimulus} (hs : Quiet s) :
    Awaits settings (ss ++ [s]) n c := by
  refine ⟨h.settings_eq, ?_, ?_⟩
  · rw [answers_concat, if_neg hs.ne_answer, Nat.add_zero]
    exact h.answers_eq
  · rw [tallied_concat settings.limits ss hs.data hs.ne_readEnd, returned_concat, hs.returned,
      List.append_nil]
    exact h.mirrors

theorem Tracks.quiet (h : Tracks settings ss n c) {s : Stimulus} (hs : Quiet s) :
    Tracks settings (ss ++ [s]) n c := by
  refine ⟨h.toAwaits.quiet hs, ?_⟩
  rw [after_concat settings.limits ss n hs.data hs.ne_readEnd]
  exact h.machine_eq

-- ======================================================= handing over

theorem callFirst_eq {jobs jobs' : List Job} {request : Request}
    (h : callFirst jobs = some (request, jobs')) :
    jobs'.map Job.request = jobs.map Job.request ∧
      ∀ (place : Nat) (job : Job) (outcome : Outcome), jobs'[place]? = some job →
        job.state = .finished outcome → jobs[place]? = some job := by
  induction jobs generalizing jobs' with
  | nil => cases h
  | cons first jobs ih =>
      unfold callFirst at h
      by_cases hq : first.state = .queued
      · rw [if_pos hq] at h
        cases h
        refine ⟨rfl, ?_⟩
        intro place job outcome hjob hstate
        cases place with
        | zero =>
            cases hjob
            cases hstate
        | succ place => exact hjob
      · rw [if_neg hq] at h
        obtain ⟨⟨request', rest⟩, hrest, heq⟩ := Option.map_eq_some_iff.1 h
        cases heq
        obtain ⟨hmap, hfin⟩ := ih hrest
        refine ⟨by rw [List.map_cons, hmap, List.map_cons], ?_⟩
        intro place job outcome hjob hstate
        cases place with
        | zero => exact hjob
        | succ place => exact hfin place job outcome hjob hstate

theorem finishAt_eq {jobs jobs' : List Job} {place : Nat} {outcome : Outcome}
    (h : finishAt jobs place outcome = some jobs') :
    jobs'.map Job.request = jobs.map Job.request ∧
      ∀ (other : Nat) (job : Job) (o : Outcome), jobs'[other]? = some job →
        job.state = .finished o → (other, o) = (place, outcome) ∨ jobs[other]? = some job := by
  unfold finishAt at h
  cases hjob : jobs[place]? with
  | none => rw [hjob] at h; cases h
  | some job =>
      rw [hjob] at h
      dsimp only at h
      obtain ⟨hlt, hget⟩ := List.getElem?_eq_some_iff.1 hjob
      by_cases hc : job.state = .called
      · rw [if_pos hc] at h
        cases h
        refine ⟨?_, ?_⟩
        · apply List.ext_getElem?
          intro i
          rw [List.getElem?_map, List.getElem?_map, List.getElem?_set]
          by_cases hi : place = i
          · subst hi
            rw [if_pos rfl, if_pos hlt, hjob]
            rfl
          · rw [if_neg hi]
        · intro other job' o hother hstate
          rw [List.getElem?_set] at hother
          by_cases hi : place = other
          · subst hi
            rw [if_pos rfl, if_pos hlt] at hother
            cases hother
            cases hstate
            exact Or.inl rfl
          · rw [if_neg hi] at hother
            exact Or.inr hother
      · rw [if_neg hc] at h
        cases h

/-- To hand a request over changes nothing that is tracked. -/
theorem Tracks.call (h : Tracks settings ss n c) {request : Request} {jobs : List Job}
    (hcall : callFirst c.jobs = some (request, jobs)) : Tracks settings ss n { c with jobs } := by
  obtain ⟨hmap, hfin⟩ := callFirst_eq hcall
  have hm := h.mirrors
  refine ⟨⟨h.settings_eq, h.answers_eq, ?_⟩, h.machine_eq⟩
  refine { hm with jobs := hmap.trans hm.jobs, finished := ?_ }
  intro place job outcome hjob hstate
  exact hm.finished place job outcome (hfin place job outcome hjob hstate) hstate

/-- A request that comes back is known to have. -/
theorem Tracks.finish (h : Tracks settings ss n c) {place : Nat} {outcome : Outcome}
    {jobs : List Job} (hfinish : finishAt c.jobs place outcome = some jobs) :
    Tracks settings (ss ++ [.finish place outcome]) n { c with jobs } := by
  obtain ⟨hmap, hfin⟩ := finishAt_eq hfinish
  have hm := h.mirrors
  refine ⟨⟨h.settings_eq, ?_, ?_⟩, ?_⟩
  · rw [answers_concat, if_neg nofun, Nat.add_zero]
    exact h.answers_eq
  · rw [tallied_concat (s := .finish place outcome) settings.limits ss rfl nofun, returned_concat,
      h.answers_eq]
    refine { hm with jobs := hmap.trans hm.jobs, finished := ?_ }
    intro other job o hjob hstate
    rw [List.mem_append]
    rcases hfin other job o hjob hstate with heq | hold
    · cases heq
      exact Or.inr (List.mem_singleton.2 rfl)
    · exact Or.inl (hm.finished other job o hold hstate)
  · rw [after_concat (s := .finish place outcome) settings.limits ss n rfl nofun]
    exact h.machine_eq

/-- The oldest unanswered request is the next item, and once it is taken
up to be answered the others are awaited. -/
theorem Tracks.answer (h : Tracks settings ss n c) {request : Request} {outcome : Outcome}
    {jobs : List Job} (hjobs : c.jobs = ⟨request, .finished outcome⟩ :: jobs) :
    (items settings.limits (received ss))[n]? = some (.request request) ∧
      (n, outcome) ∈ returned ss ∧ Awaits settings (ss ++ [.answer]) (n + 1) { c with jobs } := by
  have hm := h.mirrors
  have hdrop := hm.jobs
  rw [hjobs, List.map_cons] at hdrop
  have hget : (tallied settings.limits ss).requests[n]? = some request := by
    rw [← Nat.add_zero n, ← List.getElem?_drop, ← hdrop]
    rfl
  have hlt := (List.getElem?_eq_some_iff.1 hget).1
  refine ⟨?_, ?_, h.settings_eq, ?_, ?_⟩
  · rw [← items_tallied]
    unfold Tally.items
    rw [List.getElem?_append_left (by rw [List.length_map]; exact hlt), List.getElem?_map, hget]
    rfl
  · exact hm.finished 0 ⟨request, .finished outcome⟩ outcome (by rw [hjobs]; rfl) rfl
  · rw [answers_concat, if_pos rfl, h.answers_eq]
  · rw [tallied_concat (s := .answer) settings.limits ss rfl nofun, returned_concat]
    refine { hm with le := hlt, jobs := ?_, finished := ?_ }
    · rw [← List.drop_drop, ← hdrop]
      rfl
    · intro place job o hjob hstate
      have hold := hm.finished (place + 1) job o (by rw [hjobs]; exact hjob) hstate
      rw [Nat.add_right_comm, Nat.add_assoc]
      exact List.mem_append_left _ hold

end Connection

end WireHttp
