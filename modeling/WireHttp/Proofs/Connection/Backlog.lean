/-
How much work may be outstanding. A connection reads only while fewer
requests are unanswered than may be, and what one read can add to them is
bounded by its size: each request is the end of a message that the read
has completed, and those are paid for with at least sixteen bytes each,
of which a connection that waits has less than one request's
(`Waits.count_messageEnd_le`). So the backlog is as long as it may be, and
longer by no more than the read brings beyond its first byte
(`Tracks.length_jobs_read`).

Nothing but a read makes the backlog longer, and a connection goes back to
waiting only if it has work or can read (`Occupied`). So it does not wait
without a reason.
-/
import WireHttp.Proofs.Connection.Handover
import WireHttp.Proofs.Connection.Holding

namespace WireHttp

/-- Whether a stimulus is the outcome of a read. -/
def Stimulus.isRead : Stimulus → Bool
  | read _ | readEnd | readFault _ => true
  | call | callPanics | finish .. | answer | timer | write _ | tick _ => false

namespace Connection

variable {settings : Settings} {ss : List Stimulus} {es es' : List Effect}
  {c c' : Connection} {s : Stimulus} {n : Nat}

-- ========================================================== the backlog

theorem length_jobs_observe (c : Connection) (e : Event) :
    (c.observe e).jobs.length ≤ c.jobs.length + [e].count .messageEnd := by
  cases e with
  | messageEnd =>
      unfold observe
      cases c.assembly with
      | none => exact Nat.le_add_right _ _
      | some a => exact Nat.le_of_eq List.length_append
  | _ => exact Nat.le_refl _

/-- Every request that is added is the end of a message. -/
theorem length_jobs_observeAll (c : Connection) (events : List Event) :
    (events.foldl observe c).jobs.length ≤ c.jobs.length + events.count .messageEnd := by
  induction events generalizing c with
  | nil => exact Nat.le_refl _
  | cons e events ih =>
      have hfirst := c.length_jobs_observe e
      have hrest := ih (c.observe e)
      rw [← List.singleton_append, List.count_append]
      rw [List.singleton_append, List.foldl_cons]
      omega

theorem length_jobs_beginWrite (c : Connection) (r : Response) (next : AfterWrite) :
    (c.beginWrite r next).jobs.length ≤ c.jobs.length := by
  unfold beginWrite
  split
  · exact Nat.le_refl _
  · exact Nat.zero_le _

theorem length_jobs_proceed (c : Connection) : c.proceed.jobs.length ≤ c.jobs.length := by
  have hp := c.proceeds
  generalize c.proceed = c' at hp
  cases hp with
  | waits => exact Nat.le_refl _
  | refuses => exact length_jobs_beginWrite _ _ _
  | ends => exact Nat.zero_le _

/-- What a read adds to the backlog. -/
theorem Tracks.length_jobs_read (h : Tracks settings ss n c) {data : Bytes} (hne : data ≠ []) :
    (c.afterRead data).jobs.length ≤ c.jobs.length + 1 + (data.length - 1) / 16 := by
  have hbytes := List.length_pos_iff.2 hne
  have hends := h.waits.count_messageEnd_le h.valid data
  have hadded := length_jobs_observeAll
    { c with timer := c.timer.cancel, machine := (c.machine.receive data).drain.2 }
    (c.machine.receive data).drain.1
  refine Nat.le_trans (length_jobs_proceed _) ?_
  rw [armIfIdle_jobs]
  unfold drain
  dsimp only at hadded ⊢
  omega

theorem canRead_iff :
    c.canRead = true ↔ c.machine.wantsRead = true ∧ c.jobs.length < c.settings.maxPipelined := by
  unfold canRead
  rw [Bool.and_eq_true, decide_eq_true_eq]

theorem canRead_of_isRead (h : c.step s = some (c', es')) (hs : s.isRead = true) :
    c.stage = .waiting ∧ c.canRead = true := by
  rcases attends h with ⟨hstage, ha⟩ | ⟨_, _, _, ha⟩
  · refine ⟨hstage, ?_⟩
    cases ha with
    | read data hc => exact hc
    | readEnd hc => exact hc
    | readFault message hc => exact hc
    | _ => cases hs
  · cases ha <;> cases hs

-- ============================================================ occupation

/-- A connection that waits has work, or may be brought some. -/
def Occupied (c : Connection) : Prop :=
  c.stage = .waiting → c.jobs = [] → c.machine.wantsRead = true

theorem occupied_of_stage (h : c.stage ≠ .waiting) : c.Occupied :=
  fun hw => absurd hw h

theorem occupied_beginWrite (c : Connection) (r : Response) (next : AfterWrite) :
    (c.beginWrite r next).Occupied := by
  refine occupied_of_stage ?_
  unfold beginWrite
  split
  · nofun
  · nofun

theorem occupied_proceed (c : Connection) : c.proceed.Occupied := by
  have hp := c.proceeds
  generalize c.proceed = c' at hp
  cases hp with
  | waits hreason => exact fun _ hjobs => hreason.resolve_left (absurd hjobs)
  | refuses => exact occupied_beginWrite _ _ _
  | ends => exact occupied_of_stage nofun

/-- Requests that move on stay as many. -/
theorem Occupied.keep {jobs : List Job} (h : c.Occupied)
    (hj : jobs.map Job.request = c.jobs.map Job.request) : { c with jobs }.Occupied := by
  intro hw hjobs
  dsimp only at hjobs
  rw [hjobs, List.map_nil] at hj
  exact h hw (List.map_eq_nil_iff.1 hj.symm)

theorem Occupied.waiting (h : c.Occupied) (ha : AttendsWaiting c s c' es') : c'.Occupied := by
  cases ha with
  | read => exact occupied_proceed _
  | readEnd =>
      unfold afterReadEnd
      split
      · exact occupied_of_stage nofun
      · exact occupied_proceed _
  | readFault => exact occupied_of_stage nofun
  | call _ hcall => exact h.keep (callFirst_eq hcall).1
  | callPanics => exact occupied_of_stage nofun
  | finish hfinish => exact h.keep (finishAt_eq hfinish).1
  | answer =>
      rw [respond_eq]
      exact occupied_beginWrite _ _ _
  | expired => exact occupied_of_stage nofun
  | stale => exact occupied_proceed _
  | tick => exact h

theorem occupied_of_writing {w : Writer} {next : AfterWrite} (hstage : c.stage = .writing w next)
    (ha : AttendsWriting c w next s c' es') : c'.Occupied := by
  cases ha with
  | cut => exact occupied_of_stage nofun
  | part => exact occupied_of_stage nofun
  | last =>
      rcases c.afterWrite_cases next with ⟨-, -, heq⟩ | ⟨ending, heq⟩
      · rw [heq]
        exact occupied_proceed _
      · rw [heq]
        exact occupied_of_stage nofun
  | tick => exact occupied_of_stage (by rw [hstage]; nofun)

/-- At no moment of a run does a connection wait without a reason. -/
theorem occupied {settings : Settings} {ss : List Stimulus} {c : Connection} {es : List Effect}
    (h : (start settings).run ss = some (c, es)) : c.Occupied := by
  refine run_induction (P := fun _ c _ => c.Occupied) (occupied_proceed _) ?_ h
  intro ss c es s c' es' _ hoccupied hs
  rcases attends hs with ⟨-, ha⟩ | ⟨_, _, hstage, ha⟩
  · exact hoccupied.waiting ha
  · exact occupied_of_writing hstage ha

end Connection

/-- What keeps the work of a connection within bounds. -/
structure Restrained (settings : Settings) (c : Connection) : Prop where
  /-- There is no read while as many requests are unanswered as may be. -/
  reads : ∀ s c' es', s.isRead = true → c.step s = some (c', es') →
    c.jobs.length < settings.maxPipelined
  /-- After a read there are no more, but for those that its bytes after
  the first one have room for. -/
  backlog : ∀ data c' es', c.step (.read data) = some (c', es') →
    1 ≤ data.length ∧
      c'.jobs.length ≤ settings.maxPipelined + (data.length - 1) / 16
  /-- While it waits it reads, or has something to answer. -/
  occupied : c.stage = .waiting → c.canRead = true ∨ c.jobs ≠ []

/-- At every moment of every run, whatever has been sent and answered, a
connection that may have a request unanswered is restrained. -/
theorem backlog_is_bounded {settings : Settings} {ss : List Stimulus} {c : Connection}
    {es : List Effect} (hpos : 1 ≤ settings.maxPipelined)
    (h : (Connection.start settings).run ss = some (c, es)) : Restrained settings c := by
  have hroom {s : Stimulus} {c' : Connection} {es' : List Effect} (hs : s.isRead = true)
      (hstep : c.step s = some (c', es')) : c.jobs.length < settings.maxPipelined := by
    obtain ⟨hstage, hc⟩ := Connection.canRead_of_isRead hstep hs
    rw [← (Connection.tracks_of_waiting h hstage).settings_eq]
    exact (Connection.canRead_iff.1 hc).2
  refine ⟨fun s c' es' hs hstep => hroom hs hstep, ?_, ?_⟩
  · intro data c' es' hstep
    have hless := hroom rfl hstep
    have hstage := (Connection.canRead_of_isRead hstep rfl).1
    cases Connection.attends_of_waiting hstage hstep with
    | read _ hc hne =>
        have hadded := (Connection.tracks_of_waiting h hstage).length_jobs_read hne
        exact ⟨List.length_pos_iff.2 hne, by omega⟩
  · intro hstage
    by_cases hjobs : c.jobs = []
    · have hwants := Connection.occupied h hstage hjobs
      refine Or.inl (Connection.canRead_iff.2 ⟨hwants, ?_⟩)
      rw [hjobs, (Connection.tracks_of_waiting h hstage).settings_eq]
      exact hpos
    · exact Or.inr hjobs

/-- With one request allowed to be outstanding, a read of seventeen bytes
leaves two: it completes one of which fifteen bytes were there, and brings
another. -/
theorem backlog_is_bounded_tightly :
    ∃ (ss : List Stimulus) (data : Bytes) (c c' : Connection) (es es' : List Effect),
      (Connection.start { maxPipelined := 1 }).run ss = some (c, es) ∧ c.jobs = [] ∧
        c.step (.read data) = some (c', es') ∧ data.length = 17 ∧ c'.jobs.length = 2 ∧
        c'.jobs.length ≤ 1 + (data.length - 1) / 16 := by
  obtain ⟨ss, hss⟩ : ∃ ss : List Stimulus, ss =
      [.read (Text.Utf8.encode "A / HTTP/1.1\r\n\r")] := ⟨_, rfl⟩
  obtain ⟨data, hdata⟩ : ∃ data : Bytes, data =
      10 :: Text.Utf8.encode "A / HTTP/1.1\r\n\r\n" := ⟨_, rfl⟩
  have hrun : ((Connection.start { maxPipelined := 1 }).run ss).map (fun last => last.1.jobs)
      = some [] := by
    rw [hss]
    decide +kernel
  have hstep : (((Connection.start { maxPipelined := 1 }).run ss).bind fun last =>
      last.1.step (.read data)).map (fun last => last.1.jobs.length) = some 2 := by
    rw [hss, hdata]
    decide +kernel
  obtain ⟨⟨c, es⟩, hrun, hjobs⟩ := Option.map_eq_some_iff.1 hrun
  rw [hrun, Option.bind_some] at hstep
  obtain ⟨⟨c', es'⟩, hread, htwo⟩ := Option.map_eq_some_iff.1 hstep
  have hbounded := backlog_is_bounded (Nat.le_refl 1) hrun
  refine ⟨ss, data, c, c', es, es', hrun, hjobs, hread, ?_, htwo,
    (hbounded.backlog data c' es' hread).2⟩
  rw [hdata]
  decide

end WireHttp
