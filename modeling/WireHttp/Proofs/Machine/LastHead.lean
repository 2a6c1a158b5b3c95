/-
No request after the last one, but for one gap. Once a machine must close
it stays so, and a poll looks at that only where a request has ended. So
all hangs on whether a head was awaited when the machine came to close: a
machine that awaits none will not await one again (`Sealed`), and brings
no head whatever is called.

There is one way to come to close while a head is awaited, and that is to
begin the last response then. The invariant is `Guarded`: as long as the
machine must close and still awaits a head, that response is under way.
Until it is finished one more head is reported if its bytes are there
(`head_after_mustClose`), and so they may be
(`head_reported_while_closing`); with that head, or with the end of the
response, the machine is sealed.
-/
import WireHttp.Proofs.Machine.Items
import WireHttp.Proofs.Machine.Writing

namespace WireHttp

/-- Whether an event is the head of a request. -/
def Event.isHead : Event → Bool
  | head _ => true
  | chunk _ | messageEnd | peerClosed | rejected _ => false

namespace Machine

variable {m n : Machine}

/-- What comes next is read as a head. -/
def AwaitsHead (m : Machine) : Prop :=
  m.phase = .idle ∨ ∃ k, m.phase = .readingHead k

/-- The response under way is the last: the connection ends with it. -/
def SendsLast (m : Machine) : Prop :=
  ∃ declared written suppress, m.outbound = .sending declared written suppress true

/-- The connection must close, and no head is awaited any more. -/
structure Sealed (m : Machine) : Prop where
  mustClose : m.mustClose = true
  noHead : ¬ m.AwaitsHead

/-- A machine that must close awaits a head only during its last
response. -/
def Guarded (m : Machine) : Prop :=
  m.mustClose = true → m.AwaitsHead → m.SendsLast

theorem AwaitsHead.congr (h : m.AwaitsHead) (hp : m.phase = n.phase) : n.AwaitsHead := by
  unfold AwaitsHead
  rw [← hp]
  exact h

theorem not_awaitsHead_of_closing (hp : m.phase = .closing) : ¬ m.AwaitsHead := by
  simp [AwaitsHead, hp]

/-- Where a head is due, it is awaited, unless the machine may go on to
the next request. -/
theorem Due.awaitsHead (h : m.Due) (hc : m.mustClose = true) : m.AwaitsHead := by
  rcases h with hp | hp | ⟨-, hopen⟩
  · exact Or.inl hp
  · exact Or.inr hp
  · cases hopen.symm.trans hc

theorem not_awaitsHead_acceptHead (m : Machine) (head : Head) (consumed : Nat) :
    ¬ (m.acceptHead head consumed).AwaitsHead := by
  rcases phase_acceptHead m head consumed with ⟨hp, -⟩ | hp
  · simp [AwaitsHead, hp]
  · simp [AwaitsHead, hp]

theorem not_awaitsHead_acceptChunk (m : Machine) (x : Exchange) (r : Nat) :
    ¬ (m.acceptChunk x r).AwaitsHead := by
  rcases phase_acceptChunk m x r with ⟨hp, -⟩ | hp
  · simp [AwaitsHead, hp]
  · simp [AwaitsHead, hp]

-- ================================================= what a poll may do

/-- A poll of a machine that must close reports a head only if one was
awaited, and then the machine is sealed. -/
theorem sealed_of_head {head : Head} (hc : m.mustClose = true)
    (hp : Polls m (some (.head head)) n) : m.AwaitsHead ∧ Sealed n := by
  cases hp with
  | @head o _ consumed hf hr =>
      refine ⟨hf.due.awaitsHead hc, ?_, not_awaitsHead_acceptHead o head consumed⟩
      show (o.mustClose || !head.keepAlive) = true
      rw [hf.mustClose_eq, hc, Bool.true_or]

/-- Waiting does not bring a machine that must close to await a head. -/
theorem awaitsHead_of_starved (hc : m.mustClose = true) (hs : Starved m n)
    (ha : n.AwaitsHead) : m.AwaitsHead := by
  cases hs with
  | between hb => exact hb.due.awaitsHead hc
  | head hf hr => exact hf.due.awaitsHead hc
  | body x r hp hb => exact ha

/-- Waiting changes neither what is being written nor what must close. -/
theorem starved_frame (hs : Starved m n) :
    n.mustClose = m.mustClose ∧ n.outbound = m.outbound := by
  cases hs with
  | between | body => exact ⟨rfl, rfl⟩
  | head hf =>
      cases hf with
      | begun | resumed => exact ⟨rfl, rfl⟩

/-- What a poll does to a machine that must close: it must still close,
and if it awaits a head it did so before. -/
theorem mustClose_poll {e : Option Event} (hc : m.mustClose = true) (hp : Polls m e n) :
    n.mustClose = true ∧ (n.AwaitsHead → m.AwaitsHead ∧ n.outbound = m.outbound) := by
  cases hp with
  | closed hp => exact ⟨hc, fun ha => ⟨ha, rfl⟩⟩
  | last => exact ⟨rfl, fun ha => absurd ha (not_awaitsHead_of_closing rfl)⟩
  | waits hs =>
      obtain ⟨hclose, hout⟩ := starved_frame hs
      exact ⟨hclose.trans hc, fun ha => ⟨awaitsHead_of_starved hc hs ha, hout⟩⟩
  | peerClosed => exact ⟨rfl, fun ha => absurd ha (not_awaitsHead_of_closing rfl)⟩
  | @head o head consumed hf hr =>
      have hs : Sealed (o.acceptHead head consumed) := (sealed_of_head hc (.head hf hr)).2
      exact ⟨hs.mustClose, fun ha => absurd ha hs.noHead⟩
  | rejected => exact ⟨rfl, fun ha => absurd ha (not_awaitsHead_of_closing rfl)⟩
  | chunk x r => exact ⟨hc, fun ha => absurd ha (not_awaitsHead_acceptChunk m x r)⟩
  | messageEnd => exact ⟨hc, fun ha => by simp [AwaitsHead] at ha⟩

theorem Guarded.poll {e : Option Event} (h : m.Guarded) (hp : Polls m e n) : n.Guarded := by
  intro hc ha
  by_cases hm : m.mustClose = true
  · obtain ⟨-, hkept⟩ := mustClose_poll hm hp
    obtain ⟨hbefore, hout⟩ := hkept ha
    obtain ⟨declared, written, suppress, ho⟩ := h hm hbefore
    exact ⟨declared, written, suppress, hout.trans ho⟩
  · -- the poll itself has made the machine close, and that ends the awaiting
    cases hp with
    | closed => exact absurd hc hm
    | last => exact absurd ha (not_awaitsHead_of_closing rfl)
    | waits hs => exact absurd ((starved_frame hs).1.symm.trans hc) hm
    | peerClosed => exact absurd ha (not_awaitsHead_of_closing rfl)
    | head => exact absurd ha (not_awaitsHead_acceptHead _ _ _)
    | rejected => exact absurd ha (not_awaitsHead_of_closing rfl)
    | chunk => exact absurd hc hm
    | messageEnd => exact absurd hc hm

-- ============================================ what the writing half does

theorem SendsLast.ne_idle (h : m.SendsLast) : m.outbound ≠ .idle := by
  obtain ⟨declared, written, suppress, ho⟩ := h
  rw [ho]
  nofun

/-- The last response is begun, goes on or is finished, and nothing else
makes the machine close. -/
theorem Guarded.write {c : Call} {a : Answer} (h : m.Guarded) (hw : Writes m c a n)
    (hc : c.isOutbound = true) : n.Guarded := by
  intro hclose ha
  cases hw with
  | @begun status headers length x rest ho =>
      cases hlast : m.closesAfter x headers with
      | true => exact ⟨length, 0, x.headOnly, rfl⟩
      | false =>
          have hm : (m.mustClose || m.closesAfter x headers) = true := hclose
          rw [hlast, Bool.or_false] at hm
          exact absurd ho (h hm (ha.congr rfl)).ne_idle
  | @added data declared written suppress close ho =>
      obtain ⟨d, w, s, ho'⟩ := h hclose (ha.congr rfl)
      cases ho.symm.trans ho'
      exact ⟨declared, written + data.length, suppress, rfl⟩
  | @finished declared suppress close ho =>
      cases close with
      | true => exact absurd ha (not_awaitsHead_of_closing rfl)
      | false =>
          obtain ⟨d, w, s, ho'⟩ := h hclose (ha.congr rfl)
          cases ho.symm.trans ho'
  | @whole r x rest ho =>
      cases hlast : m.closesAfter x r.headers with
      | true =>
          rw [hlast] at ha
          exact absurd ha (not_awaitsHead_of_closing rfl)
      | false =>
          rw [hlast] at ha hclose
          exact absurd ho (h hclose (ha.congr rfl)).ne_idle
  | refused => exact h hclose ha
  | failed => exact absurd ha (not_awaitsHead_of_closing rfl)
  | elsewhere hn => cases hn.symm.trans hc

theorem mustClose_write {c : Call} {a : Answer} (hm : m.mustClose = true) (hw : Writes m c a n)
    (hc : c.isOutbound = true) : n.mustClose = true := by
  cases hw with
  | begun =>
      show (m.mustClose || _) = true
      rw [hm, Bool.true_or]
  | added => exact hm
  | @finished declared suppress close =>
      cases close with
      | true => rfl
      | false => exact hm
  | whole r =>
      split
      · rfl
      · exact hm
  | refused => exact hm
  | failed => rfl
  | elsewhere hn => cases hn.symm.trans hc

-- ============================================================ every call

/-- Every call keeps the machine guarded. -/
theorem Guarded.call (hv : m.Valid) (h : m.Guarded) (c : Call) : (m.call c).2.Guarded := by
  have hw := writes hv c
  cases c with
  | receive data =>
      obtain ⟨hphase, -, hclose, -⟩ := m.arrive_frame data false
      intro hc ha
      have hout := (m.sameFrame_receive data).outbound
      obtain ⟨declared, written, suppress, ho⟩ := h (hclose.symm.trans hc) (ha.congr hphase)
      exact ⟨declared, written, suppress, hout.trans ho⟩
  | receiveEof => exact h
  | poll => exact h.poll (polls hv)
  | startResponse | sendBody | finishResponse | sendResponse => exact h.write hw rfl

/-- What is called of a machine that must close does not undo that, and
does not bring it to await a head; a head is reported only if one was
awaited, and the last time then. -/
theorem mustClose_call (hv : m.Valid) (hc : m.mustClose = true) (c : Call) :
    (m.call c).2.mustClose = true ∧ ((m.call c).2.AwaitsHead → m.AwaitsHead) ∧
      ∀ head, (m.call c).1.event? = some (.head head) → m.AwaitsHead ∧ Sealed (m.call c).2 := by
  have hw := writes hv c
  have outbound (ho : c.isOutbound = true) (he : (m.call c).1.event? = none)
      (ha : Aside m (m.call c).2) :
      (m.call c).2.mustClose = true ∧ ((m.call c).2.AwaitsHead → m.AwaitsHead) ∧
        ∀ head, (m.call c).1.event? = some (.head head) →
          m.AwaitsHead ∧ Sealed (m.call c).2 := by
    refine ⟨mustClose_write hc hw ho, ?_, fun head hh => by cases he.symm.trans hh⟩
    intro hawaits
    rcases ha.reading with ⟨hp, -⟩ | ⟨hp, -⟩
    · exact hawaits.congr hp
    · exact absurd hawaits (not_awaitsHead_of_closing hp)
  cases c with
  | receive data =>
      obtain ⟨hphase, -, hclose, -⟩ := m.arrive_frame data false
      exact ⟨hclose.trans hc, fun ha => ha.congr hphase, nofun⟩
  | receiveEof => exact ⟨hc, id, nofun⟩
  | poll =>
      have hp := polls hv
      obtain ⟨hclose, hkept⟩ := mustClose_poll hc hp
      refine ⟨hclose, fun ha => (hkept ha).1, ?_⟩
      intro head hh
      rw [show m.poll.1 = some (.head head) from hh] at hp
      exact sealed_of_head hc hp
  | startResponse status headers length =>
      exact outbound rfl rfl (aside_startResponse m status headers length)
  | sendBody data => exact outbound rfl rfl (aside_sendBody m data)
  | finishResponse => exact outbound rfl rfl (aside_finishResponse m)
  | sendResponse r => exact outbound rfl rfl (aside_sendResponse m r)

-- ============================================================= every run

/-- The facts of one call hold of every number of calls. -/
theorem mustClose_calls (hv : m.Valid) (hc : m.mustClose = true) (h : m.Guarded)
    (cs : List Call) :
    (m.calls cs).2.Valid ∧ (m.calls cs).2.mustClose = true ∧ (m.calls cs).2.Guarded ∧
      ((m.calls cs).2.AwaitsHead → m.AwaitsHead) := by
  induction cs generalizing m with
  | nil => exact ⟨hv, hc, h, id⟩
  | cons c cs ih =>
      obtain ⟨hclose, hkept, -⟩ := mustClose_call hv hc c
      obtain ⟨hv', hc', h', ha⟩ := ih (hv.call c) hclose (h.call hv c)
      exact ⟨hv', hc', h', fun hawaits => hkept (ha hawaits)⟩

/-- A machine that must close reports at most one more head. -/
theorem countP_isHead_le (hv : m.Valid) (hc : m.mustClose = true) (cs : List Call) :
    (m.events cs).countP Event.isHead ≤ 1 ∧
      (¬ m.AwaitsHead → (m.events cs).countP Event.isHead = 0) := by
  induction cs generalizing m with
  | nil => exact ⟨Nat.zero_le _, fun _ => rfl⟩
  | cons c cs ih =>
      obtain ⟨hclose, hkept, hhead⟩ := mustClose_call hv hc c
      obtain ⟨hone, hnone⟩ := ih (hv.call c) hclose
      have hsplit : (m.events (c :: cs)).countP Event.isHead
          = (m.call c).1.event?.toList.countP Event.isHead
            + ((m.call c).2.events cs).countP Event.isHead := by
        rw [← List.singleton_append, events_append, events_singleton, List.countP_append]
        rfl
      by_cases hh : ∃ head, (m.call c).1.event? = some (.head head)
      · obtain ⟨head, hh⟩ := hh
        obtain ⟨hawaits, hsealed⟩ := hhead head hh
        have hrest := hnone hsealed.noHead
        have hfirst : (m.call c).1.event?.toList.countP Event.isHead = 1 := by
          rw [hh]
          rfl
        exact ⟨by omega, fun hno => absurd hawaits hno⟩
      · have hfirst : (m.call c).1.event?.toList.countP Event.isHead = 0 := by
          cases he : (m.call c).1.event? with
          | none => rfl
          | some e =>
              cases e with
              | head head => exact absurd ⟨head, he⟩ hh
              | _ => rfl
        exact ⟨by omega, fun hno => by have := hnone fun ha => hno (hkept ha); omega⟩

theorem guarded_calls (limits : Limits) (cs : List Call) :
    ((start limits).calls cs).2.Valid ∧ ((start limits).calls cs).2.Guarded :=
  calls_induction (m := start limits) (P := fun _ _ n => n.Valid ∧ n.Guarded)
    ⟨.start limits, nofun⟩ (fun _ _ _ c h => ⟨h.1.call c, h.2.call h.1 c⟩) cs

/-- However a machine is called, once it must close it stays so and
reports at most one more head; and that one only if a head was awaited at
that time, and before the last response, which is then under way, is
finished. -/
theorem head_after_mustClose (limits : Limits) (cs : List Call)
    (hc : ((start limits).calls cs).2.mustClose = true) (more : List Call) :
    let m := ((start limits).calls cs).2
    (m.calls more).2.mustClose = true ∧ (m.events more).countP Event.isHead ≤ 1 ∧
      ∀ head, (m.calls more).2.poll.1 = some (.head head) →
        m.AwaitsHead ∧ (m.calls more).2.SendsLast := by
  obtain ⟨hv, hg⟩ := guarded_calls limits cs
  dsimp only
  generalize ((start limits).calls cs).2 = m at hc hv hg
  obtain ⟨hv', hc', hg', hkept⟩ := mustClose_calls hv hc hg more
  refine ⟨hc', (countP_isHead_le hv hc more).1, ?_⟩
  intro head hh
  obtain ⟨-, -, hhead⟩ := mustClose_call hv' hc' .poll
  obtain ⟨hawaits, -⟩ := hhead head hh
  exact ⟨hkept hawaits, hg' hc' hawaits⟩

/-- The last response is begun with the front of another request buffered;
the rest of it arrives, and its head is the only one that is reported. -/
theorem head_after_mustClose_buffered :
    ∃ cs more : List Call,
      let m := ((start {}).calls cs).2
      m.mustClose = true ∧ (m.events more).countP Event.isHead = 1 ∧
        (m.events more).countP Event.isHead ≤ 1 := by
  have hrun : ∃ cs more : List Call, ((start {}).calls cs).2.mustClose = true ∧
      (((start {}).calls cs).2.events more).countP Event.isHead = 1 :=
    ⟨[.receive (Text.Utf8.encode "GET /a HTTP/1.1\r\n\r\nGET /b"), .poll, .poll, .poll,
        .startResponse .ok [⟨"connection", "close"⟩] 2],
      [.sendBody [97], .receive (Text.Utf8.encode " HTTP/1.1\r\n\r\nGET /c HTTP/1.1\r\n\r\n"),
        .poll, .poll, .poll, .sendBody [98], .finishResponse, .poll], by decide +kernel⟩
  obtain ⟨cs, more, hc, hcount⟩ := hrun
  exact ⟨cs, more, hc, hcount, (head_after_mustClose {} cs hc more).2.1⟩

/-- Between the beginning and the end of the last response a head is
reported, although the machine must close. -/
theorem head_reported_while_closing :
    let m := ((start {}).calls
      [.receive (Text.Utf8.encode "GET / HTTP/1.1\r\n\r\n"), .poll, .poll, .poll,
        .receive (Text.Utf8.encode "GET / HTTP/1.1\r\n\r\n"),
        .startResponse .ok [⟨"connection", "close"⟩] 0]).2
    m.mustClose = true ∧ m.poll.1.map Event.isHead = some true := by
  decide +kernel

end Machine

end WireHttp
