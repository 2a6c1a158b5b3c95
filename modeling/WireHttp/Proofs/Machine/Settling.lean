/-
Draining comes to an end, and what it ends in stays as it is.

`work` bounds every drain, and has to count a body that is being read as
if its last chunk could be empty. No body of a valid machine is, so fewer
events are ahead of it (`ahead`): at most one for each byte, one for the
end of the request that is under way, and one for the end of the stream.
By the entries of `Polls`:

- a head takes up its delimiter at least, which pays for it and for the
  end of its request;
- a chunk takes up a byte at least, and pays for itself;
- the end of a request is reported once, and after it at most the last
  word is ahead;
- after the last word, or a refused head, nothing is.

A poll without an event leaves a machine that `Waits`. To poll that again
is to find it as it is (`Waits.poll_eq`): its blank lines are gone, its
head has been searched to the end, and its body has no byte. So it stays
until something arrives or an answer is given.
-/
import WireHttp.Proofs.Machine.Waiting

namespace WireHttp

/-- How many events more than it has bytes a valid machine can still bring
in a phase. -/
def Phase.surplus : Phase → Nat
  | closing => 0
  | idle | readingHead _ | ended => 1
  | complete _ | readingBody _ _ => 2

theorem Phase.surplus_le (p : Phase) : p.surplus ≤ 2 := by
  cases p <;> simp [surplus]

namespace Machine

variable {m n : Machine}

-- ==================================================== what lies ahead

/-- A bound on the events that are ahead of a valid machine. -/
def ahead (m : Machine) : Nat :=
  m.buffer.length + m.phase.surplus

theorem Between.surplus_eq (h : m.Between) : m.phase.surplus = 1 := by
  rcases h with hp | ⟨hp, -⟩
  · rw [hp]
    rfl
  · rw [hp]
    rfl

theorem Facing.surplus_eq (h : Facing m n) : m.phase.surplus = 1 := by
  cases h with
  | begun hb => exact hb.surplus_eq
  | resumed k hp =>
      rw [hp]
      rfl

theorem Facing.length_buffer_le (h : Facing m n) : n.buffer.length ≤ m.buffer.length := by
  cases h with
  | begun => exact length_skipBlankLines_le m.buffer
  | resumed => exact Nat.le_refl _

theorem ahead_pos (h : 0 < m.phase.surplus) : 0 < m.ahead :=
  Nat.lt_of_lt_of_le h (Nat.le_add_left _ _)

theorem Facing.ahead_pos (h : Facing m n) : 0 < m.ahead :=
  Machine.ahead_pos (h.surplus_eq ▸ Nat.one_pos)

/-- A machine that waits may still be told that the stream is over. -/
theorem Starved.ahead_pos (h : Starved m n) : 0 < m.ahead := by
  cases h with
  | between hb => exact Machine.ahead_pos (hb.surplus_eq ▸ Nat.one_pos)
  | head hf => exact hf.ahead_pos
  | body x r hp =>
      apply Machine.ahead_pos
      rw [hp]
      exact Nat.two_pos

/-- A head pays for itself and for the end of its request. -/
theorem Facing.ahead_acceptHead_lt (h : Facing m n) {head : Head} {consumed : Nat}
    (hr : Head.read n.limits n.buffer = .ok (head, consumed)) :
    (n.acceptHead head consumed).ahead < m.ahead := by
  obtain ⟨hleast, hmost⟩ := Head.consumed_of_read hr
  have hbuffer : (n.acceptHead head consumed).buffer.length = n.buffer.length - consumed :=
    List.length_drop
  have hfront := h.length_buffer_le
  have hnext := (n.acceptHead head consumed).phase.surplus_le
  rw [Delimiter.length_mark] at hleast
  unfold ahead
  rw [hbuffer, h.surplus_eq]
  omega

/-- A chunk pays for itself. -/
theorem ahead_acceptChunk_lt (hv : m.Valid) {x : Exchange} {r : Nat}
    (hp : m.phase = .readingBody x r) (hb : m.buffer ≠ []) :
    (m.acceptChunk x r).ahead < m.ahead := by
  have hmissing := hv.remaining x r hp
  have hsome := List.length_pos_iff.2 hb
  have hbuffer : (m.acceptChunk x r).buffer.length = m.buffer.length - r := List.length_drop
  have hnext := (m.acceptChunk x r).phase.surplus_le
  have hnow : m.phase.surplus = 2 := by
    rw [hp]
    rfl
  unfold ahead
  omega

/-- Every event brings the end of the drain nearer. -/
theorem Polls.ahead_lt {e : Event} (h : Polls m (some e) n) (hv : m.Valid) :
    n.ahead < m.ahead := by
  cases h with
  | peerClosed hs => exact hs.ahead_pos
  | head hf hr => exact hf.ahead_acceptHead_lt hr
  | rejected hf => exact hf.ahead_pos
  | chunk x r hp hb => exact ahead_acceptChunk_lt hv hp hb
  | messageEnd x hp =>
      have hnow : m.phase.surplus = 2 := by
        rw [hp]
        rfl
      show m.buffer.length + 1 < m.buffer.length + m.phase.surplus
      omega

theorem length_drain_le_ahead (hv : m.Valid) : m.drain.1.length ≤ m.ahead := by
  refine drain_induction (P := fun m es _ => m.Valid → es.length ≤ m.ahead) ?_ ?_ m hv
  · exact fun _ _ _ _ => Nat.zero_le _
  · intro m n e hpoll ih hv
    have hp := (polls_iff hv).2 hpoll
    have hrest := ih (hp.valid hv)
    have hfirst := hp.ahead_lt hv
    rw [List.length_cons]
    omega

/-- Draining a valid machine brings at most two events more than it has
bytes. -/
theorem length_drain_le (hv : m.Valid) : m.drain.1.length ≤ m.buffer.length + 2 :=
  Nat.le_trans (length_drain_le_ahead hv) (Nat.add_le_add_left m.phase.surplus_le _)

-- ======================================================= where it ends

/-- To poll a machine that waits is to find it as it is. -/
theorem Waits.poll_eq (h : m.Waits) (hv : m.Valid) (he : m.eof = false) :
    m.poll = (none, m) := by
  cases h with
  | blank hp hb =>
      have hkept : skipBlankLines m.buffer = m.buffer := by
        rcases hb with hb | hb
        · rw [hb]
          rfl
        · rw [hb]
          rfl
      have hskip : m.skipped = m := by
        unfold skipped
        rw [hkept, ← hp]
      have hs : Starved m m.skipped := .between (Or.inl hp) (by rwa [hskip])
      rw [hskip] at hs
      exact (Polls.waits hs he).poll_eq hv
  | head hp hr =>
      have hs : Starved m { m with phase := .readingHead m.buffer.length } :=
        .head (.resumed _ hp) hr
      rw [← hp] at hs
      exact (Polls.waits hs he).poll_eq hv
  | body x r hp hb => exact (Polls.waits (.body x r hp hb) he).poll_eq hv
  | closing hp => exact (Polls.closed hp).poll_eq hv

/-- A poll without an event is one after which another does nothing. -/
theorem Polls.again (h : Polls m none n) (hv : m.Valid) : n.poll = (none, n) := by
  have hframe := poll_frame hv
  rw [h.poll_eq hv] at hframe
  have hv' := h.valid hv
  cases h with
  | closed hp => exact (Polls.closed hp).poll_eq hv
  | last => exact (Polls.closed rfl).poll_eq hv'
  | waits hs he => exact hs.waits.poll_eq hv' (hframe.eof.trans he)

/-- A machine that a poll leaves as it is stays so, however often it is
polled and given no bytes. -/
theorem calls_of_settled (h : m.poll = (none, m)) {cs : List Call}
    (hcs : ∀ c ∈ cs, c = .poll ∨ c = .receive []) : m.events cs = [] ∧ (m.calls cs).2 = m := by
  induction cs with
  | nil => exact ⟨rfl, rfl⟩
  | cons c cs ih =>
      obtain ⟨hevents, hlast⟩ := ih fun d hd => hcs d (List.mem_cons_of_mem c hd)
      have hcall : (m.call c).1.event? = none ∧ (m.call c).2 = m := by
        rcases hcs c List.mem_cons_self with rfl | rfl
        · exact ⟨congrArg Prod.fst h, congrArg Prod.snd h⟩
        · exact ⟨rfl, m.receive_nil⟩
      have hsplit := m.events_append [c] cs
      rw [events_singleton, hcall.1] at hsplit
      have hafter : (m.calls [c]).2 = m := hcall.2
      rw [hafter, hevents] at hsplit
      refine ⟨hsplit, ?_⟩
      show ((m.call c).2.calls cs).2 = m
      rw [hcall.2, hlast]

/-- To drain is to poll until there is no event. -/
theorem calls_polls (m : Machine) :
    m.calls (List.replicate (m.drain.1.length + 1) .poll)
      = (m.drain.1.map (fun e => .polled (some e)) ++ [.polled none], m.drain.2) := by
  refine drain_induction (P := fun m es last =>
    m.calls (List.replicate (es.length + 1) .poll)
      = (es.map (fun e => .polled (some e)) ++ [.polled none], last)) ?_ ?_ m
  · intro m n hp
    show ([Answer.polled m.poll.1], m.poll.2) = _
    rw [hp]
    rfl
  · intro m n e hp ih
    rw [List.length_cons, List.replicate_succ, calls]
    have hcall : m.call .poll = (.polled (some e), n) := by
      show (Answer.polled m.poll.1, m.poll.2) = _
      rw [hp]
    rw [hcall, ih]
    rfl

/-- However a machine has been called, polls bring no more than two events
beyond the number of its bytes before one brings none; and where a poll
brings none, polls and empty arrivals bring nothing and change nothing. -/
theorem drain_settles (limits : Limits) (cs : List Call) :
    let m := ((start limits).calls cs).2
    m.drain.1.length ≤ m.buffer.length + 2 ∧
      m.calls (List.replicate (m.drain.1.length + 1) .poll)
        = (m.drain.1.map (fun e => .polled (some e)) ++ [.polled none], m.drain.2) ∧
      (m.poll.1 = none → ∀ more : List Call, (∀ c ∈ more, c = .poll ∨ c = .receive []) →
        m.poll.2.events more = [] ∧ (m.poll.2.calls more).2 = m.poll.2) := by
  have hv := (Valid.start limits).calls cs
  dsimp only
  refine ⟨length_drain_le hv, calls_polls _, ?_⟩
  intro hnone more hmore
  have hp := polls hv
  rw [hnone] at hp
  exact calls_of_settled (hp.again hv) hmore

/-- The last byte of a body, the end of its request and the end of the
stream are three events of one byte. A blank line and the front of a head
are none, and the poll that takes note of them is the last to matter. -/
theorem drain_settles_tightly :
    ∃ cs ds : List Call,
      let m := ((start {}).calls cs).2
      let n := ((start {}).calls ds).2
      m.buffer.length = 1 ∧ m.drain.1 = [.chunk [97], .messageEnd, .peerClosed] ∧
        m.drain.1.length ≤ m.buffer.length + 2 ∧
        n.poll.1 = none ∧ n.poll.2 ≠ n ∧
        n.poll.2.events [.receive [], .poll, .poll] = [] ∧
        (n.poll.2.calls [.receive [], .poll, .poll]).2 = n.poll.2 := by
  have hrun : ∃ cs ds : List Call,
      (((start {}).calls cs).2.buffer.length = 1 ∧
        ((start {}).calls cs).2.drain.1 = [.chunk [97], .messageEnd, .peerClosed]) ∧
      ((start {}).calls ds).2.poll.1 = none ∧
        ((start {}).calls ds).2.poll.2 ≠ ((start {}).calls ds).2 :=
    ⟨[.receive (Text.Utf8.encode "POST / HTTP/1.1\r\nContent-Length: 1\r\n\r\na"), .poll,
        .receiveEof],
      [.receive (Text.Utf8.encode "\r\nGET /")], by decide +kernel⟩
  obtain ⟨cs, ds, ⟨hlength, hevents⟩, hnone, hmoved⟩ := hrun
  obtain ⟨hbound, -, -⟩ := drain_settles {} cs
  obtain ⟨-, -, hsettled⟩ := drain_settles {} ds
  obtain ⟨hquiet, hsame⟩ := hsettled hnone [.receive [], .poll, .poll] (by decide)
  exact ⟨cs, ds, hlength, hevents, hbound, hnone, hmoved, hquiet, hsame⟩

end Machine

end WireHttp
