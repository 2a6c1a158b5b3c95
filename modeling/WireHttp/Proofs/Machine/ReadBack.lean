/-
What is sent is read back. However a machine is called, a client that
reads what has been sent, up to the end of the last answer that was
finished, reads those answers and nothing else (`sent_is_read_back`).

`Outbox` gathers what the calls of a run have handed out. Its bytes are
settled once the answer they belong to is finished; the invariant says of
them that they are those of answers that have passed the check, each to
the item whose turn it was (`Settled`), and of the bytes that are not
settled yet that they are the front of one more (`Underway`). How such
bytes are read is a matter of the answers alone (`Received.readAll_render`).
-/
import WireHttp.Proofs.Machine.Pairing

namespace WireHttp

-- ============================================================ the outbox

/-- What has been handed out for the wire. -/
structure Outbox where
  /-- The responses of which everything has been handed out. -/
  finished : List Response := []
  /-- The bytes up to the end of the last of those. -/
  settled : Bytes := []
  /-- The response that is under way, with as much of its body as has been
  given. -/
  current : Option Response := none
  /-- The bytes after `settled`. -/
  pending : Bytes := []

namespace Outbox

/-- Takes note of what a call has given back. -/
def note (b : Outbox) : Call × Answer → Outbox
  | (.startResponse status headers _, .sent (.ok bytes)) =>
    { b with current := some { status, headers, body := [] }, pending := b.pending ++ bytes }
  | (.sendBody data, .sent (.ok bytes)) =>
    { b with
      current := b.current.map fun r => { r with body := r.body ++ data }
      pending := b.pending ++ bytes }
  | (.finishResponse, .finished (.ok ())) =>
    { finished := b.finished ++ b.current.toList, settled := b.settled ++ b.pending }
  | (.sendResponse r, .sent (.ok bytes)) =>
    { finished := b.finished ++ [r], settled := b.settled ++ b.pending ++ bytes }
  | _ => b

theorem note_of_violation (b : Outbox) {c : Call} {a : Answer} {v : Violation}
    (h : a.violation? = some v) : b.note (c, a) = b := by
  cases a with
  | nothing | polled e => cases h
  | sent result =>
      cases result with
      | ok bytes => cases h
      | error w => cases c <;> rfl
  | finished result =>
      cases result with
      | ok u => cases h
      | error w => cases c <;> rfl

theorem note_of_inbound (b : Outbox) {c : Call} (h : c.isOutbound = false) (a : Answer) :
    b.note (c, a) = b := by
  cases c with
  | receive | receiveEof | poll => rfl
  | _ => cases h

end Outbox

/-- What the calls of a history have handed out. -/
def outbox (h : List (Call × Answer)) : Outbox :=
  h.foldl Outbox.note {}

theorem outbox_snoc (h : List (Call × Answer)) (e : Call × Answer) :
    outbox (h ++ [e]) = (outbox h).note e := by
  unfold outbox
  rw [List.foldl_append]
  rfl

/-- The length of the body that a call announces. -/
def Call.announced : Call → Nat
  | startResponse _ _ length => length
  | sendResponse r => r.body.length
  | receive _ | receiveEof | poll | sendBody _ | finishResponse => 0

namespace Machine

-- ============================================================ invariant

/-- The settled bytes are those of answers to the first items. -/
structure Settled (t : Tally) (b : Outbox) (sent : List Reply) : Prop where
  fits : ∀ s ∈ sent, s.Fits
  responses : sent.map (·.response) = b.finished
  exchanges : sent.map (·.exchange) <+: t.items.map Item.exchange
  bytes : b.settled = sent.flatMap Reply.render

/-- The other bytes are the front of an answer to the next item, if one is
under way; `k` answers have been begun and `n` of them are finished. -/
inductive Underway (m : Machine) (t : Tally) (b : Outbox) (k n : Nat) : Prop
  | idle : m.outbound = .idle → k = n → b.current = none → b.pending = [] → Underway m t b k n
  | sending (item : Item) (r : Response) (declared : Nat) (close : Bool) :
      m.outbound = .sending declared r.body.length item.exchange.headOnly close →
      t.items[n]? = some item → k = n + 1 → headFault? r.status r.headers declared = none →
      declared < Text.Decimal.wordSize → b.current = some r →
      b.pending = renderHead r.status
          (outboundHeaders r.status r.headers declared close item.exchange.http10)
        ++ (if item.exchange.headOnly then [] else r.body) → Underway m t b k n
  | closed : m.outbound = .closed → Underway m t b k n

theorem Settled.mono {t t' : Tally} {b : Outbox} {sent : List Reply} (h : Settled t b sent)
    {more : List Item} (hi : t'.items = t.items ++ more) : Settled t' b sent := by
  refine ⟨h.fits, h.responses, ?_, h.bytes⟩
  rw [hi, List.map_append]
  exact h.exchanges.trans (List.prefix_append _ _)

theorem Underway.mono {m : Machine} {t t' : Tally} {b : Outbox} {k n : Nat}
    (h : Underway m t b k n) {more : List Item} (hi : t'.items = t.items ++ more) :
    Underway m t' b k n := by
  cases h with
  | idle ho hk hc hp => exact .idle ho hk hc hp
  | sending item r declared close ho hitem hk hf hw hc hp =>
      refine .sending item r declared close ho ?_ hk hf hw hc hp
      rw [hi, List.getElem?_append_left (List.getElem?_eq_some_iff.1 hitem).1]
      exact hitem
  | closed ho => exact .closed ho

theorem Underway.of_idle {m : Machine} {t : Tally} {b : Outbox} {k n : Nat}
    (h : Underway m t b k n) (ho : m.outbound = .idle) :
    k = n ∧ b.current = none ∧ b.pending = [] := by
  cases h with
  | idle _ hk hc hp => exact ⟨hk, hc, hp⟩
  | sending item r declared close ho' => cases ho.symm.trans ho'
  | closed ho' => cases ho.symm.trans ho'

theorem Underway.of_sending {m : Machine} {t : Tally} {b : Outbox} {k n : Nat}
    (h : Underway m t b k n) {declared written : Nat} {suppress close : Bool}
    (ho : m.outbound = .sending declared written suppress close) :
    ∃ (item : Item) (r : Response), written = r.body.length ∧
      suppress = item.exchange.headOnly ∧ t.items[n]? = some item ∧ k = n + 1 ∧
      headFault? r.status r.headers declared = none ∧ declared < Text.Decimal.wordSize ∧
      b.current = some r ∧
      b.pending = renderHead r.status
          (outboundHeaders r.status r.headers declared close item.exchange.http10)
        ++ (if item.exchange.headOnly then [] else r.body) := by
  cases h with
  | idle ho' => cases ho.symm.trans ho'
  | sending item r declared' close' ho' hi hk hf hw hc hp =>
      cases ho.symm.trans ho'
      exact ⟨item, r, rfl, rfl, hi, hk, hf, hw, hc, hp⟩
  | closed ho' => cases ho.symm.trans ho'

theorem Underway.congr {m m' : Machine} {t : Tally} {b : Outbox} {k n : Nat}
    (h : Underway m t b k n) (heq : m'.outbound = m.outbound) : Underway m' t b k n := by
  cases h with
  | idle ho hk hc hp => exact .idle (heq.trans ho) hk hc hp
  | sending item r declared close ho hi hk hf hw hc hp =>
      exact .sending item r declared close (heq.trans ho) hi hk hf hw hc hp
  | closed ho => exact .closed (heq.trans ho)

/-- An answer that is finished settles its bytes. -/
theorem Settled.finish {t : Tally} {b b' : Outbox} {sent : List Reply} (h : Settled t b sent)
    {item : Item} {r : Response} (hitem : t.items[sent.length]? = some item)
    (hf : r.fault? = none) (hw : r.body.length < Text.Decimal.wordSize) (close : Bool)
    (hfin : b'.finished = b.finished ++ [r])
    (hset : b'.settled = b.settled ++ item.exchange.render r close) :
    Settled t b' (sent ++ [⟨item.exchange, r, close⟩]) := by
  refine ⟨?_, ?_, ?_, ?_⟩
  · intro s hs
    rcases List.mem_append.1 hs with hs | hs
    · exact h.fits s hs
    · rw [List.mem_singleton.1 hs]
      exact ⟨hf, hw⟩
  · rw [List.map_append, h.responses, hfin]
    rfl
  · rw [List.map_append]
    apply prefix_concat h.exchanges
    rw [List.length_map, List.getElem?_map, hitem]
    rfl
  · rw [hset, h.bytes, List.flatMap_append, List.flatMap_singleton]
    rfl

/-- Every call of the writing half keeps the bytes in order. -/
theorem Underway.write {m n : Machine} {t : Tally} {b : Outbox} {k : Nat} {sent : List Reply}
    {c : Call} {a : Answer} (h : Underway m t b k sent.length) (hs : Settled t b sent)
    (hp : Paired m t k) (hc : c.announced < Text.Decimal.wordSize) (hw : Writes m c a n) :
    ∃ sent', Settled t (b.note (c, a)) sent' ∧
      Underway n t (b.note (c, a)) (k + if begins (c, a) then 1 else 0) sent'.length := by
  cases hw with
  | begun status headers length ho hx hf =>
      obtain ⟨rfl, hcur, hpend⟩ := h.of_idle ho
      obtain ⟨item, hi, rfl⟩ := hp.first hx
      refine ⟨sent, ⟨hs.fits, hs.responses, hs.exchanges, hs.bytes⟩, ?_⟩
      refine .sending item { status, headers, body := [] } length
        (m.closesAfter item.exchange headers) rfl hi rfl hf hc rfl ?_
      show b.pending ++ _ = _
      rw [hpend]
      simp
  | @added data declared written suppress close ho hle =>
      obtain ⟨item, r, rfl, rfl, hi, hk, hf, hword, hcur, hpend⟩ := h.of_sending ho
      refine ⟨sent, ⟨hs.fits, hs.responses, hs.exchanges, hs.bytes⟩, ?_⟩
      refine .sending item { r with body := r.body ++ data } declared close ?_ hi hk hf hword ?_ ?_
      · simp
      · show b.current.map _ = _
        rw [hcur]
        rfl
      · show b.pending ++ _ = _
        rw [hpend, List.append_assoc]
        cases item.exchange.headOnly with
        | true => rfl
        | false => rfl
  | @finished declared suppress close ho =>
      obtain ⟨item, r, rfl, rfl, hi, hk, hf, hword, hcur, hpend⟩ := h.of_sending ho
      refine ⟨sent ++ [⟨item.exchange, r, close⟩], hs.finish hi hf hword close ?_ ?_, ?_⟩
      · show b.finished ++ b.current.toList = _
        rw [hcur]
        rfl
      · show b.settled ++ b.pending = _
        rw [hpend]
        rfl
      · cases close with
        | true => exact .closed rfl
        | false =>
            refine .idle rfl ?_ rfl rfl
            rw [hk, List.length_append]
            rfl
  | whole r ho hx hf =>
      obtain ⟨rfl, hcur, hpend⟩ := h.of_idle ho
      obtain ⟨item, hi, rfl⟩ := hp.first hx
      refine ⟨_, hs.finish hi hf hc (m.closesAfter item.exchange r.headers) rfl ?_, ?_⟩
      · show b.settled ++ b.pending ++ _ = _
        rw [hpend, List.append_nil]
      · cases m.closesAfter item.exchange r.headers with
        | true => exact .closed rfl
        | false =>
            refine .idle ho ?_ rfl rfl
            rw [List.length_append]
            rfl
  | refused v ho hv =>
      rw [Outbox.note_of_violation b hv, begins_of_violation hv]
      exact ⟨sent, hs, h⟩
  | failed v ho hv =>
      rw [Outbox.note_of_violation b hv, begins_of_violation hv]
      exact ⟨sent, hs, .closed rfl⟩
  | elsewhere hin heq =>
      rw [Outbox.note_of_inbound b hin, begins_of_inbound hin]
      exact ⟨sent, hs, h.congr heq⟩

-- ============================================================ every run

/-- After every run the bytes are in order. -/
theorem settled_calls (limits : Limits) {cs : List Call}
    (hw : ∀ c ∈ cs, c.announced < Text.Decimal.wordSize) :
    ∃ sent, Settled (noted ((start limits).history cs)) (outbox ((start limits).history cs)) sent ∧
      Underway ((start limits).calls cs).2 (noted ((start limits).history cs))
        (outbox ((start limits).history cs)) (((start limits).history cs).countP begins)
        sent.length := by
  induction cs using List.reverseRecOn with
  | nil => exact ⟨[], ⟨nofun, rfl, List.prefix_refl _, rfl⟩, .idle rfl rfl rfl rfl⟩
  | append_singleton cs c ih =>
      obtain ⟨sent, hs, hu⟩ := ih fun d hd => hw d (List.mem_append_left _ hd)
      have hp := (paired_calls limits cs).1
      rw [history_concat, calls_concat, noted_snoc, outbox_snoc, List.countP_append,
        List.countP_singleton]
      generalize (start limits).history cs = h at hs hu hp ⊢
      generalize ((start limits).calls cs).2 = m at hu hp ⊢
      have hc := hw c (List.mem_append_right _ List.mem_cons_self)
      obtain ⟨sent', hs', hu'⟩ := hu.write hs hp hc (writes hp.valid c)
      obtain ⟨-, more, hi, -⟩ := hp.call c
      exact ⟨sent', hs'.mono hi, hu'.mono hi⟩

/-- However a machine is called, the bytes that it has handed out up to
the end of the last answer that was finished are read as those answers,
and no byte is left over: each in answer to the item whose turn it was,
with its code, its headers as they were given and after them at most the
two that the core adds, and its body, unless that stays off the wire. The
lengths that the calls announce are words. -/
theorem sent_is_read_back (limits : Limits) (cs : List Call)
    (hw : ∀ c ∈ cs, c.announced < Text.Decimal.wordSize) :
    ∃ sent : List Reply,
      sent.map (·.response) = (outbox ((start limits).history cs)).finished ∧
      sent.map (·.exchange)
        = ((noted ((start limits).history cs)).items.take sent.length).map Item.exchange ∧
      Received.readAll (sent.map (·.exchange.headOnly))
          (outbox ((start limits).history cs)).settled
        = some (sent.map Reply.received, []) := by
  obtain ⟨sent, hs, -⟩ := settled_calls limits hw
  refine ⟨sent, hs.responses, ?_, ?_⟩
  · have htake := List.prefix_iff_eq_take.1 hs.exchanges
    rwa [List.length_map, ← List.map_take] at htake
  · have hread := Received.readAll_render hs.fits []
    rwa [List.append_nil, ← hs.bytes] at hread

/-- A `HEAD` answered in pieces, whose header values look like the end of
a head, and after it an answer that is sent whole. -/
theorem sent_is_read_back_streamed :
    ∃ cs : List Call, (∀ c ∈ cs, c.announced < Text.Decimal.wordSize) ∧
      (outbox ((start {}).history cs)).finished.map (·.body.length) = [3, 2] ∧
      ∃ sent : List Reply,
        sent.map (·.response) = (outbox ((start {}).history cs)).finished ∧
        sent.map (·.exchange)
          = ((noted ((start {}).history cs)).items.take sent.length).map Item.exchange ∧
        Received.readAll (sent.map (·.exchange.headOnly)) (outbox ((start {}).history cs)).settled
          = some (sent.map Reply.received, []) := by
  have hw : ∀ c ∈ ([
      .receive (Text.Utf8.encode "HEAD / HTTP/1.1\r\n\r\nGET / HTTP/1.1\r\n\r\n"),
      .poll, .poll, .poll, .startResponse .ok [⟨"x", ": é: "⟩, ⟨"Content-Length", " +3"⟩] 3,
      .sendBody [13], .poll, .sendBody [10, 13], .finishResponse,
      .sendResponse { status := .notFound, headers := [⟨"x", ""⟩], body := [13, 10] },
      .startResponse .ok [] 5] : List Call), c.announced < Text.Decimal.wordSize := by
    decide
  exact ⟨_, hw, by decide +kernel, sent_is_read_back {} _ hw⟩

end Machine

end WireHttp
