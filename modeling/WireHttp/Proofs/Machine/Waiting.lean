/-
A machine that waits: what it holds, and what bytes can bring it.

`Waits` lists what a machine may hold once it is drained: `Starved`, seen
from behind. Of a head it holds no more than a head may be long, and of a
body nothing, for what has come of a body has been handed on.

What bytes can bring is bounded because a request is never free: its head
takes up sixteen bytes at least, and these are used up before its end is
reported. `funds` counts what there is to pay with. Bytes in the buffer
count, but of a head that is not complete no more than fifteen of those
that have been searched: it will take up all of them and one more. Of a
request whose head has been read the head counts still, for sixteen bytes
once nothing of it is to come, and for one less while the body may bring
another. So no poll raises the funds, and an end that is reported lowers
them by sixteen (`Polls.funds_add_le`); and a machine that waits has funds
for no request, but for bytes that arrive (`Waits.count_messageEnd_le`).
-/
import WireHttp.Proofs.Machine.Items
import WireHttp.Proofs.Machine.Reply

namespace WireHttp

namespace Machine

variable {m n : Machine}

-- ======================================================= what is held

/-- What a machine that has been drained may hold. -/
inductive Waits (m : Machine) : Prop
  | blank : m.phase = .idle → m.IsBlank → Waits m
  | head : m.phase = .readingHead m.buffer.length →
      Head.read m.limits m.buffer = .error .incomplete → Waits m
  | body (x : Exchange) (r : Nat) : m.phase = .readingBody x r → m.buffer = [] → Waits m
  | closing : m.phase = .closing → m.buffer = [] → Waits m

theorem Starved.waits {o : Machine} (h : Starved o m) : m.Waits := by
  cases h with
  | between _ hb => exact .blank rfl hb
  | head _ hr => exact .head rfl hr
  | body x r hp hb => exact .body x r hp hb

theorem waits_intake (limits : Limits) (data : Bytes) (told : Bool) :
    (intake limits data told).2.Waits := by
  rcases starved_intake limits data told with hc | ⟨o, hs⟩
  · exact .closing hc ((tallied_intake limits data told).valid.dropped hc)
  · exact hs.waits

/-- The answers that have been given are no part of it. -/
theorem Waits.served (h : m.Waits) (n : Nat) : (m.served n).Waits := by
  cases h with
  | blank hp hb => exact .blank hp hb
  | head hp hr => exact .head hp hr
  | body x r hp hb => exact .body x r hp hb
  | closing hp hb => exact .closing hp hb

-- ============================================================== funds

/-- What there is to pay for requests with, in bytes. -/
def funds (m : Machine) : Nat :=
  match m.phase with
  | .readingHead k => m.buffer.length - k + min k 15
  | .readingBody _ _ => m.buffer.length + 15
  | .complete _ => m.buffer.length + 16
  | .idle | .ended | .closing => m.buffer.length

theorem funds_of_between (h : m.Between) : m.funds = m.buffer.length := by
  unfold funds
  rcases h with hp | ⟨hp, -⟩
  · rw [hp]
  · rw [hp]

theorem funds_of_head {k : Nat} (hp : m.phase = .readingHead k) :
    m.funds = m.buffer.length - k + min k 15 := by
  unfold funds
  rw [hp]

theorem funds_of_body {x : Exchange} {r : Nat} (hp : m.phase = .readingBody x r) :
    m.funds = m.buffer.length + 15 := by
  unfold funds
  rw [hp]

theorem funds_of_complete {x : Exchange} (hp : m.phase = .complete x) :
    m.funds = m.buffer.length + 16 := by
  unfold funds
  rw [hp]

/-- What a request has paid when its head has been read. -/
theorem funds_acceptHead_le (m : Machine) (head : Head) (consumed : Nat) :
    (m.acceptHead head consumed).funds ≤ m.buffer.length - consumed + 16 := by
  have hbuffer : (m.acceptHead head consumed).buffer.length = m.buffer.length - consumed :=
    List.length_drop
  rcases phase_acceptHead m head consumed with ⟨hp, -⟩ | hp
  · refine Nat.le_of_eq ?_
    rw [funds_of_complete hp, hbuffer]
  · rw [funds_of_body hp, hbuffer]
    exact Nat.le_succ _

/-- The bytes that a head takes up pay for it. -/
theorem Facing.funds_acceptHead_le (h : Facing m n) (hv : m.Valid) {head : Head} {consumed : Nat}
    (hr : Head.read n.limits n.buffer = .ok (head, consumed)) :
    (n.acceptHead head consumed).funds ≤ m.funds := by
  have hpaid := Machine.funds_acceptHead_le n head consumed
  have hleast := Head.sixteen_le_of_read hr
  have hmost := (Head.consumed_of_read hr).2
  cases h with
  | begun hb =>
      have hskip : m.skipped.buffer.length ≤ m.buffer.length := length_skipBlankLines_le m.buffer
      rw [funds_of_between hb]
      omega
  | resumed k hp =>
      obtain ⟨hk, hnone⟩ := hv.scanned k hp
      have hmore := Head.lt_of_find?_take hnone hr
      rw [funds_of_head hp]
      omega

/-- What waits for more bytes does so at no cost. -/
theorem Starved.funds_le (h : Starved m n) (hv : m.Valid) : n.funds ≤ m.funds := by
  cases h with
  | between hb =>
      rw [funds_of_between hb, funds_of_between (m := m.skipped) (Or.inl rfl)]
      exact length_skipBlankLines_le m.buffer
  | @head n hf hr =>
      rw [funds_of_head (m := { n with phase := .readingHead n.buffer.length }) rfl]
      cases hf with
      | begun hb =>
          have hskip : m.skipped.buffer.length ≤ m.buffer.length :=
            length_skipBlankLines_le m.buffer
          rw [funds_of_between hb]
          dsimp only
          omega
      | resumed k hp =>
          have hk := (hv.scanned k hp).1
          rw [funds_of_head hp]
          dsimp only
          omega
  | body => exact Nat.le_refl _

/-- The last chunk of a body has a byte more to pay with. -/
theorem funds_acceptChunk_le {x : Exchange} {r : Nat} (hv : m.Valid)
    (hp : m.phase = .readingBody x r) (hb : m.buffer ≠ []) :
    (m.acceptChunk x r).funds ≤ m.funds := by
  have hpos := hv.remaining x r hp
  have hsome := List.length_pos_iff.2 hb
  have hbuffer : (m.acceptChunk x r).buffer.length = m.buffer.length - r := List.length_drop
  rw [funds_of_body hp]
  rcases phase_acceptChunk m x r with ⟨hp', -⟩ | hp'
  · rw [funds_of_complete hp', hbuffer]
    omega
  · rw [funds_of_body hp', hbuffer]
    omega

/-- No poll raises the funds, and each end that is reported is paid. -/
theorem Polls.funds_add_le {e : Option Event} (h : Polls m e n) (hv : m.Valid) :
    n.funds + 16 * e.toList.count .messageEnd ≤ m.funds := by
  cases h with
  | closed => exact Nat.le_refl _
  | last => exact Nat.zero_le _
  | waits hs => exact hs.funds_le hv
  | peerClosed => exact Nat.zero_le _
  | head hf hr => exact hf.funds_acceptHead_le hv hr
  | rejected => exact Nat.zero_le _
  | chunk x r hp hb => exact funds_acceptChunk_le hv hp hb
  | messageEnd x hp =>
      refine Nat.le_of_eq ?_
      rw [funds_of_complete hp]
      rfl

/-- So no drain reports more ends than there are funds for. -/
theorem count_messageEnd_drain_le (hv : m.Valid) :
    16 * m.drain.1.count .messageEnd ≤ m.funds := by
  refine drain_induction
    (P := fun m es _ => m.Valid → 16 * es.count .messageEnd ≤ m.funds) ?_ ?_ m hv
  · exact fun _ _ _ _ => Nat.zero_le _
  · intro m n e hpoll ih hv
    have hp := (polls_iff hv).2 hpoll
    have hfirst := hp.funds_add_le hv
    have hrest := ih (hp.valid hv)
    rw [← List.singleton_append, List.count_append]
    rw [Option.toList_some] at hfirst
    omega

-- =========================================================== one read

theorem funds_receive_le (m : Machine) (data : Bytes) :
    (m.receive data).funds ≤ m.funds + data.length := by
  by_cases hc : m.phase = .closing
  · rw [receive_of_closing hc]
    exact Nat.le_add_right _ _
  · rw [receive_of_open hc]
    unfold funds
    dsimp only
    rw [List.length_append]
    split <;> omega

/-- A machine that waits has funds for no request. -/
theorem Waits.funds_le (h : m.Waits) : m.funds ≤ 15 := by
  cases h with
  | blank hp hb =>
      rw [funds_of_between (Or.inl hp)]
      rcases hb with hb | hb
      · simp [hb]
      · simp [hb]
  | head hp =>
      rw [funds_of_head hp, Nat.sub_self, Nat.zero_add]
      exact Nat.min_le_right _ _
  | body x r hp hb =>
      refine Nat.le_of_eq ?_
      rw [funds_of_body hp, hb]
      rfl
  | closing hp hb =>
      unfold funds
      rw [hp, hb]
      exact Nat.zero_le _

/-- What one read can bring a machine that waits. -/
theorem Waits.count_messageEnd_le (h : m.Waits) (hv : m.Valid) (data : Bytes) :
    16 * (m.receive data).drain.1.count .messageEnd ≤ data.length + 15 := by
  have hends := count_messageEnd_drain_le (hv.receive data)
  have hread := m.funds_receive_le data
  have hrest := h.funds_le
  omega

end Machine

end WireHttp
