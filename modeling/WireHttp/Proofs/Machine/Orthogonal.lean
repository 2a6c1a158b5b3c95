/-
Sending does not disturb reading. The two halves share the phase and the
flag that says the connection must close, and both touch what is owed; yet
a run from which all sending is struck out reads the same, as long as the
sending is calm: no call begins the last response, and a call that is
refused merely came at the wrong moment.

The argument compares the two runs call by call. `SameReading` says that
two machines agree in all that the receiving half looks at; they may owe
different answers and be writing different things. A poll takes such
machines to such machines with the same event (`SameReading.poll`), because
it asks for no more (`Polls.beside`), and a calm call of the writing half
leaves its machine as it was to the reader (`sameReading_write`). For the
latter no last response may be under way, which is the other half of the
invariant (`not_sendsLast_call`): finishing it would end the reading.
-/
import WireHttp.Proofs.Machine.LastHead

namespace WireHttp

/-- The response that a call is to begin: its status, its headers and the
length of its body. -/
def Call.opening? : Call → Option (Status × Headers × Nat)
  | startResponse status headers length => some (status, headers, length)
  | sendResponse r => some (r.status, r.headers, r.body.length)
  | receive _ | receiveEof | poll | sendBody _ | finishResponse => none

namespace Machine

variable {m m' n n' : Machine}

-- ======================================================== calm sending

/-- The call begins a response, and the connection ends with it. -/
def BeginsLast (m : Machine) (c : Call) : Prop :=
  ∃ o ∈ c.opening?, (m.startResponse o.1 o.2.1 o.2.2).1.isOk = true ∧
    (m.startResponse o.1 o.2.1 o.2.2).2.SendsLast

/-- The call does not begin the last response, and if it is refused then
because no request waits for a response, one is already under way, or none
is. -/
structure Calm (m : Machine) (c : Call) : Prop where
  notLast : ¬ m.BeginsLast c
  mistimed : ∀ v, (m.call c).1.violation? = some v →
    v = .noPendingRequest ∨ v = .responseInProgress ∨ v = .noResponseInProgress

instance (m : Machine) : Decidable m.SendsLast :=
  match h : m.outbound with
  | .sending declared written suppress true => .isTrue ⟨declared, written, suppress, h⟩
  | .sending _ _ _ false => .isFalse fun ⟨_, _, _, h'⟩ => nomatch h.symm.trans h'
  | .idle => .isFalse fun ⟨_, _, _, h'⟩ => nomatch h.symm.trans h'
  | .closed => .isFalse fun ⟨_, _, _, h'⟩ => nomatch h.symm.trans h'

instance (m : Machine) (c : Call) : Decidable (m.BeginsLast c) :=
  inferInstanceAs (Decidable (∃ o ∈ c.opening?, _ ∧ _))

instance (m : Machine) (c : Call) : Decidable (m.Calm c) :=
  decidable_of_iff (¬ m.BeginsLast c ∧ ∀ v ∈ (m.call c).1.violation?,
      v = .noPendingRequest ∨ v = .responseInProgress ∨ v = .noResponseInProgress)
    ⟨fun h => ⟨h.1, h.2⟩, fun h => ⟨h.notLast, h.mistimed⟩⟩

theorem Calm.isMistimed {c : Call} (h : m.Calm c) {v : Violation}
    (hv : (m.call c).1.violation? = some v) : v.isMistimed = true := by
  rcases h.mistimed v hv with rfl | rfl | rfl
  · rfl
  · rfl
  · rfl

/-- A calm call that begins a response does not begin the last. -/
theorem Calm.not_closesAfter {c : Call} {status : Status} {headers : Headers} {length : Nat}
    {x : Exchange} {rest : List Exchange} (h : m.Calm c)
    (hc : c.opening? = some (status, headers, length)) (ho : m.outbound = .idle)
    (hx : m.owed = x :: rest) (hf : headFault? status headers length = none) :
    m.closesAfter x headers = false := by
  rw [← Bool.not_eq_true]
  intro hlast
  refine h.notLast ⟨_, hc, ?_⟩
  dsimp only
  rw [startResponse_of_fit ho hx hf hlast]
  exact ⟨rfl, length, 0, x.headOnly, rfl⟩

-- ================================================== what the reader sees

/-- Two machines agree in all that the receiving half looks at. -/
structure SameReading (m n : Machine) : Prop where
  limits : n.limits = m.limits
  buffer : n.buffer = m.buffer
  phase : n.phase = m.phase
  mustClose : n.mustClose = m.mustClose
  eof : n.eof = m.eof

theorem SameReading.refl (m : Machine) : SameReading m m := ⟨rfl, rfl, rfl, rfl, rfl⟩

theorem SameReading.symm (h : SameReading m n) : SameReading n m :=
  ⟨h.limits.symm, h.buffer.symm, h.phase.symm, h.mustClose.symm, h.eof.symm⟩

theorem SameReading.trans (h : SameReading m n) (h' : SameReading n n') : SameReading m n' :=
  ⟨h'.limits.trans h.limits, h'.buffer.trans h.buffer, h'.phase.trans h.phase,
    h'.mustClose.trans h.mustClose, h'.eof.trans h.eof⟩

theorem SameReading.hasPartialMessage (h : SameReading m n) :
    n.hasPartialMessage = m.hasPartialMessage := by
  unfold Machine.hasPartialMessage
  rw [h.phase, h.buffer]

theorem sameReading_beside (m : Machine) (owed : List Exchange) (outbound : Outbound) :
    SameReading m (m.beside owed outbound) := ⟨rfl, rfl, rfl, rfl, rfl⟩

/-- The reader sees all of a machine but what it owes and writes. -/
theorem SameReading.eq_beside (h : SameReading m n) : n = m.beside n.owed n.outbound := by
  obtain ⟨hlimits, hbuffer, hphase, hclose, heof⟩ := h
  cases n
  cases hlimits
  cases hbuffer
  cases hphase
  cases hclose
  cases heof
  rfl

-- ============================================================ reading

theorem SameReading.valid (h : SameReading m n) (hv : m.Valid) : n.Valid :=
  hv.congr h.phase h.buffer

/-- Machines that read the same report the same, and go on so. -/
theorem SameReading.poll (h : SameReading m n) (hv : m.Valid) :
    n.poll.1 = m.poll.1 ∧ SameReading m.poll.2 n.poll.2 := by
  obtain ⟨added, -, hall⟩ := (polls hv).beside
  have hp := hall n.owed n.outbound
  rw [← h.eq_beside] at hp
  rw [hp.poll_eq (h.valid hv)]
  exact ⟨rfl, sameReading_beside _ _ _⟩

theorem SameReading.receive (h : SameReading m n) (data : Bytes) :
    SameReading (m.receive data) (n.receive data) := by
  by_cases hc : m.phase = .closing
  · rw [receive_of_closing hc, receive_of_closing (h.phase.trans hc)]
    exact h
  · rw [receive_of_open hc, receive_of_open (h.phase ▸ hc)]
    exact ⟨h.limits, congrArg (· ++ data) h.buffer, h.phase, h.mustClose, h.eof⟩

/-- A call of the receiving half gives the same on both machines, and they
go on reading the same. -/
theorem SameReading.call (h : SameReading m n) (hv : m.Valid) {c : Call}
    (hc : c.isOutbound = false) :
    (n.call c).1 = (m.call c).1 ∧ SameReading (m.call c).2 (n.call c).2 := by
  cases c with
  | receive data => exact ⟨rfl, h.receive data⟩
  | receiveEof => exact ⟨rfl, h.limits, h.buffer, h.phase, h.mustClose, rfl⟩
  | poll =>
      obtain ⟨hevent, hnext⟩ := h.poll hv
      refine ⟨?_, hnext⟩
      show Answer.polled n.poll.1 = Answer.polled m.poll.1
      rw [hevent]
  | startResponse | sendBody | finishResponse | sendResponse => cases hc

-- ============================================================ sending

/-- A calm call of the writing half changes nothing for the reader. -/
theorem sameReading_write (hv : m.Valid) (hs : ¬ m.SendsLast) {c : Call}
    (hc : c.isOutbound = true) (hcalm : m.Calm c) : SameReading m (m.call c).2 := by
  have hw := writes hv c
  generalize ha : (m.call c).1 = a at hw
  generalize (m.call c).2 = n at hw
  cases hw with
  | begun status headers length ho hx hf =>
      have hopen := hcalm.not_closesAfter rfl ho hx hf
      refine ⟨rfl, rfl, rfl, ?_, rfl⟩
      show (m.mustClose || _) = m.mustClose
      rw [hopen, Bool.or_false]
  | added => exact ⟨rfl, rfl, rfl, rfl, rfl⟩
  | @finished declared suppress close ho =>
      cases close with
      | true => exact absurd ⟨declared, declared, suppress, ho⟩ hs
      | false => exact ⟨rfl, rfl, rfl, rfl, rfl⟩
  | whole r ho hx hf =>
      rw [hcalm.not_closesAfter rfl ho hx hf]
      exact ⟨rfl, rfl, rfl, rfl, rfl⟩
  | refused => exact .refl m
  | failed v _ hviolation hlate =>
      cases hlate.symm.trans (hcalm.isMistimed (ha ▸ hviolation))
  | elsewhere hn => cases hn.symm.trans hc

/-- While the sending is calm no last response is under way. -/
theorem not_sendsLast_call (hv : m.Valid) (hs : ¬ m.SendsLast) {c : Call}
    (hcalm : c.isOutbound = true → m.Calm c) : ¬ (m.call c).2.SendsLast := by
  have hw := writes hv c
  generalize ha : (m.call c).1 = a at hw
  generalize (m.call c).2 = n at hw
  rintro ⟨declared, written, suppress, hlast⟩
  cases hw with
  | begun status headers length ho hx hf =>
      rw [(hcalm rfl).not_closesAfter rfl ho hx hf] at hlast
      cases hlast
  | added data ho =>
      cases hlast
      exact hs ⟨_, _, _, ho⟩
  | @finished _ _ close =>
      cases close with
      | true => cases hlast
      | false => cases hlast
  | whole r ho hx hf =>
      rw [(hcalm rfl).not_closesAfter rfl ho hx hf] at hlast
      cases ho.symm.trans hlast
  | refused => exact hs ⟨_, _, _, hlast⟩
  | failed => cases hlast
  | elsewhere hn heq => exact hs ⟨_, _, _, heq.symm.trans hlast⟩

-- ============================================================ every run

/-- The calls of the receiving half among those of a run. -/
def inbound (cs : List Call) : List Call :=
  cs.filter fun c => !c.isOutbound

theorem inbound_concat (cs : List Call) (c : Call) :
    inbound (cs ++ [c]) = inbound cs ++ if c.isOutbound then [] else [c] := by
  unfold inbound
  rw [List.filter_append]
  cases hc : c.isOutbound <;> simp [hc]

/-- The sending of a run is calm. -/
def CalmRun (m : Machine) (cs : List Call) : Prop :=
  ∀ front c rest, cs = front ++ c :: rest → c.isOutbound = true → (m.calls front).2.Calm c

theorem CalmRun.front {cs ds : List Call} (h : m.CalmRun (cs ++ ds)) : m.CalmRun cs :=
  fun front c rest hsplit hc => h front c (rest ++ ds) (by rw [hsplit]; simp) hc

theorem CalmRun.last {cs : List Call} {c : Call} (h : m.CalmRun (cs ++ [c])) :
    c.isOutbound = true → (m.calls cs).2.Calm c :=
  h cs c [] rfl

theorem calmRun_cons {c : Call} {cs : List Call} :
    m.CalmRun (c :: cs) ↔ (c.isOutbound = true → m.Calm c) ∧ (m.call c).2.CalmRun cs := by
  constructor
  · intro h
    refine ⟨h [] c cs rfl, fun front d rest hsplit => ?_⟩
    exact h (c :: front) d rest (by rw [hsplit, List.cons_append])
  · rintro ⟨hfirst, hrest⟩ front d rest hsplit hd
    cases front with
    | nil =>
        cases hsplit
        exact hfirst hd
    | cons c' front =>
        cases hsplit
        exact hrest front d rest rfl hd

instance decidableCalmRun : (m : Machine) → (cs : List Call) → Decidable (m.CalmRun cs)
  | _, [] => .isTrue fun front c rest hsplit => by simp at hsplit
  | m, c :: cs =>
    have := decidableCalmRun (m.call c).2 cs
    decidable_of_iff _ calmRun_cons.symm

/-- After any calm run the machine reads as if nothing had been sent. -/
theorem sameReading_calls (hv : m.Valid) (hs : ¬ m.SendsLast) {cs : List Call}
    (hcalm : m.CalmRun cs) :
    (m.calls cs).2.Valid ∧ ¬ (m.calls cs).2.SendsLast ∧
      SameReading (m.calls cs).2 (m.calls (inbound cs)).2 := by
  induction cs using List.reverseRecOn with
  | nil => exact ⟨hv, hs, .refl m⟩
  | append_singleton cs c ih =>
      obtain ⟨hvalid, hnone, hsame⟩ := ih hcalm.front
      rw [calls_concat, inbound_concat]
      refine ⟨hvalid.call c, not_sendsLast_call hvalid hnone hcalm.last, ?_⟩
      cases hc : c.isOutbound with
      | true =>
          rw [if_pos rfl, List.append_nil]
          exact (sameReading_write hvalid hnone hc (hcalm.last hc)).symm.trans hsame
      | false =>
          rw [if_neg Bool.false_ne_true, calls_concat]
          exact (hsame.call hvalid hc).2

/-- Take any calls in any order, the sending among them calm, and strike
the sending out. Then every call that is left gives back what it gave
before, and leaves the machine in the same phase, with the same bytes
buffered, as near to closing, and as far into a message. -/
theorem inbound_call_eq (limits : Limits) (cs : List Call)
    (hcalm : (start limits).CalmRun cs) (front : List Call) (c : Call) (rest : List Call)
    (hsplit : cs = front ++ c :: rest) (hc : c.isOutbound = false) :
    let m := ((start limits).calls front).2.call c
    let n := ((start limits).calls (inbound front)).2.call c
    n.1 = m.1 ∧ n.2.phase = m.2.phase ∧ n.2.buffer = m.2.buffer ∧
      n.2.mustClose = m.2.mustClose ∧ n.2.hasPartialMessage = m.2.hasPartialMessage := by
  have hfront : (start limits).CalmRun front := (hsplit ▸ hcalm).front
  have hidle : ¬ (start limits).SendsLast := by
    rintro ⟨_, _, _, ho⟩
    cases ho
  obtain ⟨hv, -, hsame⟩ := sameReading_calls (.start limits) hidle hfront
  obtain ⟨hanswer, hnext⟩ := hsame.call hv hc
  exact ⟨hanswer, hnext.phase, hnext.buffer, hnext.mustClose, hnext.hasPartialMessage⟩

/-- A request is answered while the body of the next is arriving, with
calls at the wrong moment in between; the body is reported as it would be
without them. -/
theorem inbound_call_eq_amid_body :
    ∃ front rest : List Call, (start {}).CalmRun (front ++ .poll :: rest) ∧
      front.countP (·.isOutbound) = 6 ∧
      (((start {}).calls front).2.call .poll).1.event? = some (.chunk [99, 100]) ∧
      (((start {}).calls (inbound front)).2.call .poll).1.event? = some (.chunk [99, 100]) := by
  have hrun : ∃ front rest : List Call, (start {}).CalmRun (front ++ .poll :: rest) ∧
      front.countP (·.isOutbound) = 6 ∧
      (((start {}).calls front).2.call .poll).1.event? = some (.chunk [99, 100]) :=
    ⟨[.sendBody [97], .receive (Text.Utf8.encode
        "GET /a HTTP/1.1\r\n\r\nPOST /b HTTP/1.1\r\ncontent-length: 4\r\n\r\nab"),
        .poll, .startResponse .ok [] 1, .poll, .startResponse .ok [] 2, .poll, .sendBody [97],
        .startResponse .ok [] 0, .poll, .receive [99, 100], .sendBody [98]],
      [.finishResponse, .poll, .sendResponse (.ok [])], by decide +kernel⟩
  obtain ⟨front, rest, hcalm, hcount, hevent⟩ := hrun
  have hsame := (inbound_call_eq {} _ hcalm front .poll rest rfl rfl).1
  exact ⟨front, rest, hcalm, hcount, hevent, by rw [hsame, hevent]⟩

end Machine

end WireHttp
