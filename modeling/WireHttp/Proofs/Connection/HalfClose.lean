/-
What becomes of a connection that reads the end of the stream. It hangs on
whether a request is open, that is, on where the bytes received leave the
machine (`Tracks.hasPartialMessage_iff`): within a head or a body the
connection fails at once and does nothing more. Otherwise it goes on
without reading until it has answered what it had taken up (`half_closed`).

At that moment all that the connection keeps are requests of the stream
(`Tracks.outstanding`), for one that has refused a head does not read. The
machine is told of the end and closes, and the rest is a matter of
`Leaving`.
-/
import WireHttp.Proofs.Connection.Leaving
import WireHttp.Proofs.Machine.BlankLines

namespace WireHttp

-- ================================================== where the end comes

namespace Machine

/-- A head or a body is being read. -/
def InMessage (m : Machine) : Prop :=
  (∃ k, m.phase = .readingHead k) ∨ ∃ x r, m.phase = .readingBody x r

/-- A machine that has just found that it must wait is within a message
just if it says so. -/
theorem hasPartialMessage_iff {m n : Machine} (hs : Starved m n) :
    n.hasPartialMessage = true ↔ n.InMessage := by
  cases hs with
  | between hb hblank =>
      rw [hblank.hasPartialMessage_eq rfl]
      constructor
      · nofun
      · rintro (⟨k, hp⟩ | ⟨x, r, hp⟩)
        · cases hp
        · cases hp
  | head hf hr => exact ⟨fun _ => Or.inl ⟨_, rfl⟩, fun _ => rfl⟩
  | body x r hp hb =>
      refine ⟨fun _ => Or.inr ⟨x, r, hp⟩, fun _ => ?_⟩
      unfold hasPartialMessage
      rw [hp]

/-- Blank lines after complete requests, or a lone carriage return, begin
no message. -/
theorem not_inMessage_of_blank {limits : Limits} {front : Bytes}
    (hp : (intake limits front false).2.phase = .idle)
    (hb : (intake limits front false).2.buffer = []) (k : Nat) {cr : Bytes}
    (hcr : cr = [] ∨ cr = [13]) :
    ¬ (intake limits (front ++ (blankLines k ++ cr)) false).2.InMessage := by
  rw [(intake_append limits front (blankLines k ++ cr) false).machine]
  have hv : (intake limits front false).2.Valid := (tallied_intake limits front false).valid
  have he := eof_intake limits front false
  dsimp only
  generalize (intake limits front false).2 = m at hp hb hv he
  have hskip : (m.receive (blankLines k ++ cr)).skipped.buffer = cr := by
    rw [receive_of_open (by rw [hp]; nofun)]
    show skipBlankLines (m.buffer ++ (blankLines k ++ cr)) = cr
    rw [hb, List.nil_append, skipBlankLines_blankLines]
    rcases hcr with rfl | rfl
    · rfl
    · rfl
  have hphase : (m.receive (blankLines k ++ cr)).phase = .idle :=
    (m.arrive_frame (blankLines k ++ cr) false).1.trans hp
  have heof : (m.receive (blankLines k ++ cr)).eof = false :=
    (m.sameFrame_receive _).eof.trans he
  have hblank : (m.receive (blankLines k ++ cr)).skipped.IsBlank := by
    unfold IsBlank
    rw [hskip]
    exact hcr
  have hpoll := (polls_iff (hv.receive _)).1 (.waits (.between (Or.inl hphase) hblank) heof)
  rw [arrive_false, drain_of_none hpoll]
  rintro (⟨k, h⟩ | ⟨x, r, h⟩)
  · cases h
  · cases h

end Machine

-- ========================================================= the end comes

namespace Connection

variable {answer : Nat → Response} {settings : Settings} {ss : List Stimulus} {c : Connection}
  {n : Nat}

/-- The machine of a connection that reads is what the bytes received made
of a new one, less the answers given. -/
theorem Tracks.intake_eq (h : Tracks settings ss n c) (hc : c.canRead = true) :
    c.machine = (Machine.intake settings.limits (received ss) false).2.served n ∧
      (Machine.intake settings.limits (received ss) false).2.phase ≠ .closing := by
  have heq : c.machine = (Machine.intake settings.limits (received ss) false).2.served n := by
    rw [h.machine_eq, after, h.ended_eq hc]
  have hphase := phase_ne_closing_of_canRead hc
  rw [heq] at hphase
  exact ⟨heq, hphase⟩

/-- A connection that reads has been refused nothing. -/
theorem Tracks.refused_eq (h : Tracks settings ss n c) (hc : c.canRead = true) :
    c.refused = none := by
  obtain ⟨-, hopen⟩ := h.intake_eq hc
  have hrefused := h.mirrors.refused
  rw [tallied, h.ended_eq hc] at hrefused
  rcases (Machine.tallied_intake settings.limits (received ss) false).of_atRest
    (Machine.atRest_intake settings.limits (received ss) false)
    (Machine.eof_intake settings.limits (received ss) false) with ⟨-, hk⟩ | ⟨hp, -⟩
  · exact hrefused.trans hk.refused
  · exact absurd hp hopen

/-- The requests that a connection keeps while it reads are the items of
the stream that it has not answered. -/
theorem Tracks.outstanding (h : Tracks settings ss n c) (hc : c.canRead = true) :
    (items settings.limits (received ss)).drop n
      = (c.jobs.map Job.request).map Item.request := by
  have hnone := h.mirrors.refused.symm.trans (h.refused_eq hc)
  rw [← items_tallied, h.mirrors.jobs, List.map_drop]
  unfold Tally.items
  rw [hnone, Option.toList_none, List.map_nil, List.append_nil]

/-- Where the end of the stream finds a connection that reads. -/
theorem Tracks.hasPartialMessage_iff (h : Tracks settings ss n c) (hc : c.canRead = true) :
    c.machine.hasPartialMessage = true ↔
      (Machine.intake settings.limits (received ss) false).2.InMessage := by
  obtain ⟨heq, hopen⟩ := h.intake_eq hc
  rcases Machine.starved_intake settings.limits (received ss) false with hp | ⟨o, hs⟩
  · exact absurd hp hopen
  · rw [← Machine.hasPartialMessage_iff hs, heq]
    rfl

/-- Told of the end between two messages, a connection has all that it has
taken up left to answer, and may be done at once. -/
theorem Tracks.leaving (h : Tracks settings ss n c) (hw : c.timer.isArmed = c.isIdle)
    (hc : c.canRead = true) (hout : c.machine.hasPartialMessage = false)
    (hback : ∀ p ∈ returned ss, n ≤ p.1 → p.2 = .answered (answer p.1))
    (hfit : ∀ k, n ≤ k → k < n + c.jobs.length → (answer k).fault? = none) :
    Leaving answer n c.afterReadEnd
        ((farewell answer n (c.jobs.map Job.request)).flatMap Turn.reply) ∧
      c.afterReadEnd.jobs = c.jobs := by
  unfold afterReadEnd
  rw [hout, if_neg Bool.false_ne_true, h.readEnd_eq hc]
  unfold proceed isSettled
  dsimp only
  cases hjobs : c.jobs with
  | nil =>
      rw [h.refused_eq hc]
      exact ⟨.gone rfl, rfl⟩
  | cons job jobs =>
      rw [← hjobs]
      have hne : c.jobs ≠ [] := by
        rw [hjobs]
        nofun
      rw [List.isEmpty_eq_false_iff.2 hne, if_neg Bool.false_ne_true]
      refine ⟨.waiting _ rfl (fun he => hne (List.map_eq_nil_iff.1 he)) ?_, rfl⟩
      refine ⟨rfl, ?_, ?_, rfl, rfl, ?_, ?_, ?_⟩
      · show c.machine.outbound = .idle
        rw [h.machine_eq]
        exact outbound_after settings.limits ss n
      · show c.machine.owed = _
        rw [h.machine_eq, owed_after, h.outstanding hc, List.map_map]
        rfl
      · exact armed?_of_isIdle (c := c) hw (not_isIdle_of_jobs hne)
      · rw [List.length_map]
        exact hfit
      · intro place job outcome hjob hstate
        exact hback _ (h.mirrors.finished place job outcome hjob hstate) (Nat.le_add_right _ _)

end Connection

-- ============================================================ half-closed

/-- How a connection takes its leave that has read the end of the stream
between two messages, when it was `c₀`, and has since become `c` and done
`es`. -/
structure Departs (settings : Settings) (answer : Nat → Response) (before rest : List Stimulus)
    (c₀ c : Connection) (es : List Effect) : Prop where
  /-- The requests outstanding are all that the stream has left. -/
  outstanding : (items settings.limits (received before)).drop (answers before)
    = (c₀.jobs.map Job.request).map Item.request
  /-- At every moment their responses are being written in order. -/
  written_prefix : written es <+:
    (farewell answer (answers before) (c₀.jobs.map Job.request)).flatMap Turn.reply
  /-- The last response of them announces the close, and no other does. -/
  announced : c₀.jobs ≠ [] → ∃ front last,
    farewell answer (answers before) (c₀.jobs.map Job.request) = front ++ [last] ∧
      last.Announces ∧ ∀ t ∈ front, ¬ t.Announces
  /-- When the connection is over, all of them have been written. -/
  whole : ∀ ending, c.stage = .over ending → ending = .closed .peerClosed ∧
    written es = (farewell answer (answers before) (c₀.jobs.map Job.request)).flatMap Turn.reply
  /-- Until then there is a next step, -/
  attends : (∀ ending, c.stage ≠ .over ending) → ∃ s, s.isFault = false ∧ s.isTick = false ∧
    Supplies answer (answers before) ((before ++ .readEnd :: rest) ++ [s]) ∧
    (c.step s).isSome = true
  /-- and so many steps are the most that there can be. -/
  bounded : rest.countP (fun s => !s.isTick) ≤ 3 * c₀.jobs.length +
    ((farewell answer (answers before) (c₀.jobs.map Job.request)).flatMap Turn.reply).length

variable {settings : Settings} {before rest : List Stimulus} {c₀ c : Connection}
  {es₀ es : List Effect}

/-- What a connection is that reads the end of the stream. -/
theorem Connection.tracks_of_readEnd
    (hbefore : (Connection.start settings).run before = some (c₀, es₀)) {c' : Connection}
    {es' : List Effect} (hs : c₀.step .readEnd = some (c', es')) :
    Connection.Tracks settings before (answers before) c₀ ∧ c₀.canRead = true ∧
      c' = c₀.afterReadEnd ∧ es' = [] ∧ c₀.stage = .waiting := by
  cases Connection.ledger hbefore with
  | waiting log hstage htracks =>
      cases Connection.attends_of_waiting hstage hs with
      | readEnd hc =>
          rw [htracks.answers_eq]
          exact ⟨htracks, hc, rfl, rfl, hstage⟩
  | writing log t sent w hstage => cases Connection.attends_of_writing hstage hs
  | finished log part ending hstage => cases (Connection.step_of_over hstage _).symm.trans hs
  | unwound log hstage => cases (Connection.step_of_unwound hstage _).symm.trans hs

/-- What is left to be said of a connection that was between two messages. -/
theorem Connection.departs {answer : Nat → Response}
    (ht : Connection.Tracks settings before (answers before) c₀) (hc : c₀.canRead = true)
    (hw : c₀.timer.isArmed = c₀.isIdle) (hout : c₀.machine.hasPartialMessage = false)
    (hback : Supplies answer (answers before) (before ++ .readEnd :: rest))
    (hfit : ∀ k, answers before ≤ k → k < answers before + c₀.jobs.length →
      (answer k).fault? = none)
    (hclean : ∀ s ∈ rest, s.isFault = false) (hrun : c₀.afterReadEnd.run rest = some (c, es)) :
    Departs settings answer before rest c₀ c es := by
  have hsplit : returned (before ++ .readEnd :: rest)
      = returned before ++ returnedFrom (answers before) rest := by
    unfold returned
    rw [returnedFrom_append, Nat.zero_add]
    rfl
  obtain ⟨hleaving, hjobs⟩ := ht.leaving hw hc hout
    (fun p hp => hback.answered p (by rw [hsplit]; exact List.mem_append_left _ hp)) hfit
  have hcalls : Stimulus.callPanics ∉ rest := fun hmem =>
    hback.calls (List.mem_append_right _ (List.mem_cons_of_mem _ hmem))
  obtain ⟨left, hlast, hwritten, heffort⟩ := hleaving.run hrun hclean hcalls fun p hp =>
    hback.answered p (by rw [hsplit]; exact List.mem_append_right _ hp)
      (le_of_mem_returnedFrom hp)
  rw [hjobs] at heffort
  refine ⟨ht.outstanding hc, ⟨left, hwritten⟩, ?_, ?_, ?_, ?_⟩
  · intro hne
    exact farewell_announces answer _ fun he => hne (List.map_eq_nil_iff.1 he)
  · intro ending ho
    obtain ⟨rfl, rfl⟩ := hlast.eq_of_over ho
    rw [List.append_nil] at hwritten
    exact ⟨rfl, hwritten⟩
  · intro hopen
    obtain ⟨s, hs, htick, hcall, hnext, hstep⟩ := hlast.attends hopen
    have hcalls' : Stimulus.callPanics ∉ (before ++ .readEnd :: rest) ++ [s] := fun hmem =>
      (List.mem_append.1 hmem).elim hback.calls fun hlast =>
        hcall (List.mem_singleton.1 hlast).symm
    refine ⟨s, hs, htick, ⟨?_, hcalls'⟩, hstep⟩
    have hanswers : answers (before ++ .readEnd :: rest) = answers before + answers rest := by
      rw [answers_append, show Stimulus.readEnd :: rest = [.readEnd] ++ rest from rfl,
        answers_append, show answers [.readEnd] = 0 from rfl, Nat.zero_add]
    intro p hp hle
    rw [returned_concat, hanswers] at hp
    rcases List.mem_append.1 hp with hp | hp
    · exact hback.answered p hp hle
    · exact hnext p hp
  · have hmost := effort_le c₀.jobs
    omega

/-- A connection reads the end of the stream, and no fault occurs from then
on. If the bytes received leave the machine within a head or a body, the
connection fails at once and does nothing more. Otherwise, if all that is
outstanding is answered with responses that fit, they are written in order
up to the first that closes the connection, which is told so, and the
connection ends because the peer has closed. Blank lines after complete
requests, or a lone carriage return, are no message. -/
theorem half_closed (hbefore : (Connection.start settings).run before = some (c₀, es₀))
    (hrun : c₀.run (.readEnd :: rest) = some (c, es)) (hclean : ∀ s ∈ rest, s.isFault = false) :
    let m := (Machine.intake settings.limits (received before) false).2
    (m.InMessage → rest = [] ∧ es = [] ∧ c.stage = .over (.failed .truncated)) ∧
      (¬ m.InMessage → ∀ answer : Nat → Response,
        Supplies answer (answers before) (before ++ .readEnd :: rest) →
        (∀ k, answers before ≤ k → k < answers before + c₀.jobs.length →
          (answer k).fault? = none) →
        Departs settings answer before rest c₀ c es) ∧
      ∀ front k cr, (Machine.intake settings.limits front false).2.phase = .idle →
        (Machine.intake settings.limits front false).2.buffer = [] → cr = [] ∨ cr = [13] →
        received before = front ++ (blankLines k ++ cr) → ¬ m.InMessage := by
  rw [Connection.run] at hrun
  obtain ⟨⟨c₁, first⟩, hstep, hrun⟩ := Option.bind_eq_some_iff.1 hrun
  obtain ⟨⟨last, later⟩, hrest, heq⟩ := Option.bind_eq_some_iff.1 hrun
  cases heq
  obtain ⟨ht, hc, rfl, rfl, hstage⟩ := Connection.tracks_of_readEnd hbefore hstep
  refine ⟨?_, ?_, ?_⟩
  · intro hin
    rw [← ht.hasPartialMessage_iff hc] at hin
    have hover : c₀.afterReadEnd = c₀.endWith (.failed .truncated) := by
      unfold Connection.afterReadEnd
      rw [hin, if_pos rfl]
    rw [hover] at hrest
    cases rest with
    | nil =>
        cases hrest
        exact ⟨rfl, rfl, rfl⟩
    | cons s rest =>
        rw [Connection.run, Connection.step_of_over rfl] at hrest
        cases hrest
  · intro hout answer hback hfit
    rw [← ht.hasPartialMessage_iff hc, Bool.not_eq_true] at hout
    have hw := (Connection.watched hbefore).waiting hstage
    exact Connection.departs ht hc hw hout hback hfit hclean hrest
  · intro front k cr hp hb hcr hbytes
    rw [hbytes]
    exact Machine.not_inMessage_of_blank hp hb k hcr

/-- With two requests outstanding, a blank line and half of another come,
and then the end of the stream; the second request is handed over after
that, and the responses, of 65 and 84 bytes, are taken in pieces. -/
theorem half_closed_pipelined :
    ∃ (before rest : List Stimulus) (c₀ c : Connection) (es₀ es : List Effect),
      (Connection.start {}).run before = some (c₀, es₀) ∧
        c₀.run (.readEnd :: rest) = some (c, es) ∧ c₀.jobs.length = 2 ∧
        (written es).length = 149 ∧ c.stage = .over (.closed .peerClosed) ∧
        Departs {} (fun _ => .ok [97]) before rest c₀ c es := by
  obtain ⟨front, hfront⟩ : ∃ front : Bytes, front =
      Text.Utf8.encode "GET /a HTTP/1.1\r\n\r\nGET /b HTTP/1.1\r\n\r\n" := ⟨_, rfl⟩
  obtain ⟨before, hss⟩ : ∃ before : List Stimulus, before =
      [.read front, .call, .finish 0 (.answered (.ok [97])), .read [13, 10, 13]] := ⟨_, rfl⟩
  obtain ⟨rest, hrest⟩ : ∃ rest : List Stimulus, rest =
      [.answer, .write (.accept 60), .tick 6000, .write (.accept 9), .call,
        .finish 0 (.answered (.ok [97])), .answer, .write (.accept 70), .write (.accept 70)] :=
    ⟨_, rfl⟩
  have hkept : ((Connection.start {}).run before).map (fun last => last.1.jobs.length)
      = some 2 := by
    rw [hss, hfront]
    decide +kernel
  have hwhole : ((Connection.start {}).run before).bind (fun front =>
      (front.1.run (.readEnd :: rest)).map fun last =>
        (last.1.stage, (written last.2).length))
      = some (.over (.closed .peerClosed), 149) := by
    rw [hss, hrest, hfront]
    decide +kernel
  obtain ⟨⟨c₀, es₀⟩, hbefore, hjobs⟩ := Option.map_eq_some_iff.1 hkept
  rw [hbefore] at hwhole
  obtain ⟨⟨c, es⟩, hrun, hover⟩ := Option.map_eq_some_iff.1 hwhole
  obtain ⟨hstage, hlen⟩ := Prod.mk.inj hover
  have hclean : ∀ s ∈ rest, s.isFault = false := by
    rw [hrest]
    decide
  obtain ⟨-, houtside, hblank⟩ := half_closed hbefore hrun hclean
  have hidle : (Machine.intake (Settings.limits {}) front false).2.phase = .idle ∧
      (Machine.intake (Settings.limits {}) front false).2.buffer = [] := by
    rw [hfront]
    decide +kernel
  have hout := hblank front 1 [13] hidle.1 hidle.2 (Or.inr rfl) (by rw [hss]; rfl)
  have hsupplies : Supplies (fun _ => .ok [97]) (answers before) (before ++ .readEnd :: rest) := by
    rw [hss, hrest]
    refine ⟨fun p hp _ => ?_, by simp⟩
    simp only [returned, returnedFrom, List.cons_append, List.nil_append, List.mem_cons,
      List.not_mem_nil, or_false] at hp
    rcases hp with rfl | rfl
    · rfl
    · rfl
  exact ⟨before, rest, c₀, c, es₀, es, hbefore, hrun, hjobs, hlen, hstage,
    houtside hout _ hsupplies fun _ _ _ => by decide⟩

end WireHttp
