/-
What a connection holds for its peer while it waits. `Stores` lists it by
the phase of the machine: of a head no more bytes than a head may have,
and of a request whose body is arriving the assembly, which with what is
to come is as long as was declared.

The bytes are a matter of the machine, which is drained whenever the
connection waits (`Tracks.waits`). The assembly is kept beside it, and
nothing but the order of the events ties the two together. `Gathers` says
how, and every poll keeps it, if the event is observed
(`Gathers.observe`); only the end of the stream within a request would
break it, and that ends the connection before it is polled. Over a run it
is told by the stage (`Keeps`): it may be lost with the answer that closes
the machine, after which nothing is waited for.
-/
import WireHttp.Proofs.Connection.Ledger
import WireHttp.Proofs.Machine.Grammar
import WireHttp.Proofs.Machine.Waiting

namespace WireHttp

/-- What a machine that waits holds, within the limits, and the assembly
that is kept beside it. -/
inductive Stores (limits : Limits) (m : Machine) : Option Assembly → Prop
  | idle : m.phase = .idle → m.buffer = [] ∨ m.buffer = [13] → Stores limits m none
  | head (k : Nat) : m.phase = .readingHead k → m.buffer.length ≤ limits.maxHead →
      Stores limits m none
  | body (a : Assembly) (x : Exchange) (r : Nat) : m.phase = .readingBody x r → m.buffer = [] →
      a.body.length + r = a.head.contentLength → a.head.contentLength ≤ limits.maxBody.toNat →
      Stores limits m (some a)
  | closing : m.phase = .closing → m.buffer = [] → Stores limits m none

-- ========================================================= the assembly

/-- The assembly that belongs to a machine: there is one while a body is
being read, and until its end is reported. -/
inductive Gathers (m : Machine) : Option Assembly → Prop
  | nothing : m.Clear ∨ m.phase = .closing → Gathers m none
  | arriving (a : Assembly) (x : Exchange) (r : Nat) : m.phase = .readingBody x r →
      a.body.length + r = a.head.contentLength →
      a.head.contentLength ≤ m.limits.maxBody.toNat → Gathers m (some a)
  | whole (a : Assembly) (x : Exchange) : m.phase = .complete x → Gathers m (some a)

variable {m n : Machine} {kept : Option Assembly}

theorem Gathers.congr (h : Gathers m kept) (hp : n.phase = m.phase)
    (hl : n.limits = m.limits) : Gathers n kept := by
  cases h with
  | nothing hc =>
      refine .nothing ?_
      unfold Machine.Clear at hc ⊢
      rwa [hp]
  | arriving a x r hw hsum hle => exact .arriving a x r (hp.trans hw) hsum (hl ▸ hle)
  | whole a x hw => exact .whole a x (hp.trans hw)

theorem Gathers.eq_none (h : Gathers m kept) (hc : m.Clear ∨ m.phase = .closing) :
    kept = none := by
  cases h with
  | nothing => rfl
  | arriving a x r hp => simp [Machine.Clear, hp] at hc
  | whole a x hp => simp [Machine.Clear, hp] at hc

theorem Gathers.of_body (h : Gathers m kept) {x : Exchange} {r : Nat}
    (hp : m.phase = .readingBody x r) :
    ∃ a, kept = some a ∧ a.body.length + r = a.head.contentLength ∧
      a.head.contentLength ≤ m.limits.maxBody.toNat := by
  cases h with
  | nothing hc => simp [Machine.Clear, hp] at hc
  | arriving a y s hp' hsum hle =>
      cases hp.symm.trans hp'
      exact ⟨a, rfl, hsum, hle⟩
  | whole a y hp' => cases hp.symm.trans hp'

theorem Gathers.of_complete (h : Gathers m kept) {x : Exchange} (hp : m.phase = .complete x) :
    ∃ a, kept = some a := by
  cases h with
  | nothing hc => simp [Machine.Clear, hp] at hc
  | arriving a y s hp' => cases hp.symm.trans hp'
  | whole a y hp' => exact ⟨a, rfl⟩

/-- What is kept beside a machine that waits is within the limits. -/
theorem Gathers.stores (h : Gathers m kept) (hw : m.Waits) : Stores m.limits m kept := by
  cases hw with
  | blank hp hb =>
      rw [h.eq_none (Or.inl (Or.inl hp))]
      exact .idle hp hb
  | head hp hr =>
      rw [h.eq_none (Or.inl (Or.inr (Or.inl ⟨_, hp⟩)))]
      exact .head _ hp (Head.read_eq_incomplete_iff.1 hr).2
  | body x r hp hb =>
      obtain ⟨a, rfl, hsum, hle⟩ := h.of_body hp
      exact .body a x r hp hb hsum hle
  | closing hp hb =>
      rw [h.eq_none (Or.inr hp)]
      exact .closing hp hb

-- =============================================================== events

/-- A head that was read is kept, with its whole body to come. -/
theorem gathers_acceptHead {head : Head} {consumed : Nat}
    (hr : Head.read m.limits m.buffer = .ok (head, consumed)) :
    Gathers (m.acceptHead head consumed) (some { head }) := by
  rcases Machine.phase_acceptHead m head consumed with ⟨hp, -⟩ | hp
  · exact .whole _ _ hp
  · exact .arriving _ _ _ hp (Nat.zero_add _) (Head.contentLength_le_of_read hr)

/-- A chunk is kept of what was to come. -/
theorem gathers_acceptChunk {a : Assembly} (x : Exchange) {r : Nat}
    (hsum : a.body.length + r = a.head.contentLength)
    (hle : a.head.contentLength ≤ m.limits.maxBody.toNat) :
    Gathers (m.acceptChunk x r) (some (a.add (m.buffer.take r))) := by
  rcases Machine.phase_acceptChunk m x r with ⟨hp, -⟩ | hp
  · exact .whole _ _ hp
  · refine .arriving _ _ _ hp ?_ hle
    have htake := List.length_take_le r m.buffer
    rw [Assembly.body_add, List.length_append]
    show _ = a.head.contentLength
    omega

/-- Waiting changes nothing of what is kept. -/
theorem Gathers.starved (h : Gathers m kept) (hs : Machine.Starved m n) : Gathers n kept := by
  cases hs with
  | between hb =>
      rw [h.eq_none (Or.inl hb.clear)]
      exact .nothing (Or.inl (Or.inl rfl))
  | head hf =>
      rw [h.eq_none (Or.inl hf.clear)]
      exact .nothing (Or.inl (Or.inr (Or.inl ⟨_, rfl⟩)))
  | body => exact h

/-- A poll that brings no event changes nothing of it either. -/
theorem Gathers.poll (h : Gathers m kept) (hp : Machine.Polls m none n) : Gathers n kept := by
  cases hp with
  | closed => exact h
  | last hp =>
      rw [h.eq_none (Or.inl (Or.inr (Or.inr hp)))]
      exact .nothing (Or.inr rfl)
  | waits hs => exact h.starved hs

/-- An event that is observed leaves the assembly that belongs to the
machine after it. -/
theorem Gathers.observe {c : Connection} (h : Gathers m c.assembly) {e : Event}
    (hp : Machine.Polls m (some e) n) (he : m.eof = false) :
    Gathers n (c.observe e).assembly := by
  cases hp with
  | peerClosed hs he' => cases he.symm.trans he'
  | head hf hr => exact gathers_acceptHead hr
  | rejected => exact .nothing (Or.inr rfl)
  | chunk x r hp hb =>
      obtain ⟨a, ha, hsum, hle⟩ := h.of_body hp
      show Gathers _ (c.assembly.map (·.add (m.buffer.take r)))
      rw [ha]
      exact gathers_acceptChunk x hsum hle
  | messageEnd x hp =>
      obtain ⟨a, ha⟩ := h.of_complete hp
      unfold Connection.observe
      rw [ha]
      exact .nothing (Or.inl (Or.inr (Or.inr rfl)))

/-- So do all events that bytes lead to. -/
theorem Gathers.observeAll {c : Connection} (h : Gathers m c.assembly) (hv : m.Valid)
    (he : m.eof = false) : Gathers m.drain.2 (m.drain.1.foldl Connection.observe c).assembly := by
  refine Machine.drain_induction (P := fun m events last => ∀ c : Connection,
    Gathers m c.assembly → m.Valid → m.eof = false →
      Gathers last (events.foldl Connection.observe c).assembly) ?_ ?_ m c h hv he
  · intro m n hp c h hv he
    exact h.poll ((Machine.polls_iff hv).2 hp)
  · intro m n e hp ih c h hv he
    have hpolls := (Machine.polls_iff hv).2 hp
    have heof := (Machine.poll_frame hv).eof
    rw [hp] at heof
    exact ih (c.observe e) (h.observe hpolls he) (hpolls.valid hv) (heof.trans he)

namespace Connection

variable {settings : Settings} {ss : List Stimulus} {es es' : List Effect}
  {c c' : Connection} {s : Stimulus}

-- ============================================================ the moves

/-- The assembly of a connection, told by the stage. -/
inductive Keeps (c : Connection) : Prop
  | waiting : c.stage = .waiting → Gathers c.machine c.assembly → Keeps c
  | writing (w : Writer) (next : AfterWrite) : c.stage = .writing w next →
      (c.machine.isWriteClosed = false → Gathers c.machine c.assembly) → Keeps c
  | finished (ending : Ending) : c.stage = .over ending → Keeps c
  | unwound : c.stage = .unwound → Keeps c

/-- A response that is sent ends the reading, or leaves it where it was. -/
theorem gathers_sendResponse {r : Response} {bytes : Bytes}
    (h : Gathers m kept) (hs : m.sendResponse r = (.ok bytes, n))
    (ho : n.isWriteClosed = false) : Gathers n kept := by
  obtain ⟨hout, hf, x, rest, hx⟩ := Machine.due_of_sendResponse (congrArg Prod.fst hs)
  rw [Machine.sendResponse_of_fit hout hx hf rfl] at hs
  obtain ⟨-, rfl⟩ := Prod.mk.inj hs
  cases hc : m.closesAfter x r.headers with
  | true =>
      rw [hc] at ho
      cases ho
  | false => exact h.congr rfl rfl

theorem keeps_beginWrite (h : Gathers c.machine c.assembly) (r : Response) (next : AfterWrite) :
    Keeps (c.beginWrite r next) := by
  unfold beginWrite
  split
  · next bytes machine hs => exact .writing _ _ rfl (gathers_sendResponse h hs)
  · exact .finished _ rfl

theorem keeps_proceed (h : Gathers c.machine c.assembly) : Keeps c.proceed := by
  have hp := c.proceeds
  generalize c.proceed = c' at hp
  cases hp with
  | waits => exact .waiting rfl h
  | refuses => exact keeps_beginWrite (c := { c with refused := none }) h _ _
  | ends => exact .finished _ rfl

theorem gathers_armIfIdle (h : Gathers c.machine c.assembly) :
    Gathers c.armIfIdle.machine c.armIfIdle.assembly := by
  unfold armIfIdle
  split
  · exact h
  · exact h

-- ============================================================ the steps

/-- The machine of a connection that goes on, once it has been drained. -/
theorem Tracks.waits {n : Nat} (h : Tracks settings ss n c) : c.machine.Waits := by
  rw [h.machine_eq]
  exact (Machine.waits_intake settings.limits (received ss) (ended ss)).served n

theorem Tracks.valid {n : Nat} (h : Tracks settings ss n c) : c.machine.Valid := by
  rw [h.machine_eq]
  exact (Machine.tallied_intake settings.limits (received ss) (ended ss)).valid.congr rfl rfl

theorem Tracks.limits_eq {n : Nat} (h : Tracks settings ss n c) :
    c.machine.limits = settings.limits := by
  rw [h.machine_eq]
  have hframe := Machine.sameFrame_intake settings.limits (received ss) (ended ss)
  rw [Machine.arrive_of_open (m := .start settings.limits) nofun] at hframe
  exact hframe.limits

/-- Bytes are read. -/
theorem keeps_read (hv : c.machine.Valid) (h : Gathers c.machine c.assembly)
    (hc : c.canRead = true) (data : Bytes) : Keeps (c.afterRead data) := by
  have hframe := c.machine.sameFrame_receive data
  have hphase : (c.machine.receive data).phase = c.machine.phase :=
    (c.machine.arrive_frame data false).1
  have hall := Gathers.observeAll
    (c := { c with timer := c.timer.cancel, machine := (c.machine.receive data).drain.2 })
    (h.congr hphase hframe.limits) (hv.receive data) (hframe.eof.trans (eof_of_canRead hc))
  refine keeps_proceed (gathers_armIfIdle ?_)
  unfold drain
  dsimp only
  rw [(observeAll_frame _ _).machine]
  exact hall

/-- The end of the stream is read, within a request or else with nothing
kept. -/
theorem Tracks.keeps_readEnd {n : Nat} (h : Tracks settings ss n c)
    (hg : Gathers c.machine c.assembly) (hc : c.canRead = true) : Keeps c.afterReadEnd := by
  unfold afterReadEnd
  split
  · exact .finished _ rfl
  · next hpartial =>
    have hclear : c.machine.Clear ∨ c.machine.phase = .closing := by
      cases h.waits with
      | blank hp => exact Or.inl (Or.inl hp)
      | head hp => exact Or.inl (Or.inr (Or.inl ⟨_, hp⟩))
      | body x r hp =>
          unfold Machine.hasPartialMessage at hpartial
          rw [hp] at hpartial
          exact absurd rfl hpartial
      | closing hp => exact Or.inr hp
    rw [h.readEnd_eq hc]
    refine keeps_proceed ?_
    dsimp only
    rw [hg.eq_none hclear]
    exact .nothing (Or.inr rfl)

theorem Tracks.keeps {n : Nat} (h : Tracks settings ss n c) (hg : Gathers c.machine c.assembly)
    (hstage : c.stage = .waiting) (ha : AttendsWaiting c s c' es') : Keeps c' := by
  cases ha with
  | read data hc => exact keeps_read h.valid hg hc data
  | readEnd hc => exact h.keeps_readEnd hg hc
  | readFault => exact .finished _ rfl
  | call | finish => exact .waiting hstage hg
  | callPanics => exact .unwound rfl
  | @answer request outcome jobs =>
      rw [respond_eq]
      exact keeps_beginWrite (c := { c with jobs }) hg _ _
  | expired => exact .finished _ rfl
  | @stale token timer => exact keeps_proceed (c := { c with timer }) hg
  | tick => exact .waiting hstage hg

theorem keeps_of_writing {w : Writer} {next : AfterWrite}
    (hg : c.machine.isWriteClosed = false → Gathers c.machine c.assembly)
    (hstage : c.stage = .writing w next) (ha : AttendsWriting c w next s c' es') : Keeps c' := by
  cases ha with
  | cut => exact .finished _ rfl
  | part => exact .writing _ _ rfl hg
  | last =>
      rcases c.afterWrite_cases next with ⟨-, hopen, heq⟩ | ⟨ending, heq⟩
      · rw [heq]
        exact keeps_proceed (gathers_armIfIdle (hg hopen))
      · rw [heq]
        exact .finished _ rfl
  | tick => exact .writing w next hstage hg

/-- Every step keeps the assembly that belongs to the machine. -/
theorem keeps_step (hl : Ledger settings ss c es) (h : Keeps c) (hs : c.step s = some (c', es')) :
    Keeps c' := by
  cases h with
  | waiting hstage hg =>
      cases hl with
      | waiting log _ htracks => exact htracks.keeps hg hstage (attends_of_waiting hstage hs)
      | writing log t sent w hw => cases hstage.symm.trans hw
      | finished log part ending ho => cases hstage.symm.trans ho
      | unwound log hu => cases hstage.symm.trans hu
  | writing w next hstage hg => exact keeps_of_writing hg hstage (attends_of_writing hstage hs)
  | finished ending ho => cases (step_of_over ho s).symm.trans hs
  | unwound hu => cases (step_of_unwound hu s).symm.trans hs

/-- At every moment of a run the assembly is the machine's. -/
theorem keeps {settings : Settings} {ss : List Stimulus} {c : Connection} {es : List Effect}
    (h : (start settings).run ss = some (c, es)) : Keeps c :=
  run_induction (P := fun _ c _ => Keeps c)
    (keeps_proceed (.nothing (Or.inl (Or.inl rfl))))
    (fun _ _ _ _ _ _ hrun hk hs => keeps_step (ledger hrun) hk hs) h

end Connection

/-- Whatever the peer has sent and however it came in pieces, a connection
that waits holds no more for it than the limits allow: no more bytes of a
head than a head may have, a lone carriage return at most between two
requests, and none else; and a request is kept just while its body is
being read, as long with what is to come as its head has declared. -/
theorem holds_within_limits {settings : Settings} {ss : List Stimulus} {c : Connection}
    {es : List Effect} (h : (Connection.start settings).run ss = some (c, es))
    (hw : c.stage = .waiting) : Stores settings.limits c.machine c.assembly := by
  have htracks := Connection.tracks_of_waiting h hw
  cases Connection.keeps h with
  | waiting _ hg =>
      rw [← htracks.limits_eq]
      exact hg.stores htracks.waits
  | writing w next hwriting => cases hw.symm.trans hwriting
  | finished ending ho => cases hw.symm.trans ho
  | unwound hu => cases hw.symm.trans hu

/-- A head of as many bytes as it may have declares a body of as many as
it may have; it arrives in two pieces, and the body but for one byte in
two more. -/
theorem holds_within_limits_exactly :
    ∃ (ss : List Stimulus) (c : Connection) (es : List Effect),
      (Connection.start { limits := { maxHead := 35, maxBody := 3 } }).run ss = some (c, es) ∧
        c.stage = .waiting ∧ c.assembly.map Assembly.body = some [97, 98] ∧
        Stores { maxHead := 35, maxBody := 3 } c.machine c.assembly := by
  obtain ⟨ss, hss⟩ : ∃ ss : List Stimulus, ss =
      [.read (Text.Utf8.encode "A / HTTP/1.1\r\nContent-Length: 3\r\n\r"), .read [10, 97],
        .read [98]] := ⟨_, rfl⟩
  have hrun : ((Connection.start { limits := { maxHead := 35, maxBody := 3 } }).run ss).map
      (fun last => (last.1.stage, last.1.assembly.map Assembly.body))
        = some (.waiting, some [97, 98]) := by
    rw [hss]
    decide +kernel
  obtain ⟨⟨c, es⟩, hrun, heq⟩ := Option.map_eq_some_iff.1 hrun
  obtain ⟨hstage, hbody⟩ := Prod.mk.inj heq
  exact ⟨ss, c, es, hrun, hstage, hbody, holds_within_limits hrun hstage⟩

end WireHttp
