/-
Answers are paired with requests first in, first out. However a machine is
called, it owes an answer to each request whose end it has reported, and
to the head it has refused, less the answers that have been begun; and the
next one that is begun is framed for the oldest of those
(`begun_in_order`).

Two invariants carry this, both kept by every call. `Paired` says that
what is owed are the items of the events from the one on whose number is
that of the answers begun: a poll appends to the items and to what is owed
alike, and an answer takes from the front. `Decided` is what was decided
of the answer under way, once, as it began; nothing but the beginning of
another changes it. How it is framed is a case of that (`Bound`).
-/
import WireHttp.Proofs.Machine.Items
import WireHttp.Proofs.Machine.Writing
import WireHttp.Proofs.Response.Written

namespace WireHttp

-- ======================================================= asked and begun

/-- Whether a call has brought an event that asks for an answer: the end
of a request, or a head that was refused. -/
def asks : Call × Answer → Bool
  | (_, .polled (some .messageEnd)) | (_, .polled (some (.rejected _))) => true
  | _ => false

/-- Whether a call has begun an answer. -/
def begins : Call × Answer → Bool
  | (.startResponse .., .sent (.ok _)) | (.sendResponse _, .sent (.ok _)) => true
  | _ => false

/-- What the events of a history amount to. -/
def noted (h : List (Call × Answer)) : Tally :=
  Tally.noteAll {} (h.filterMap fun e => e.2.event?)

theorem noted_append (h h' : List (Call × Answer)) :
    noted (h ++ h') = (noted h).noteAll (h'.filterMap fun e => e.2.event?) := by
  unfold noted
  rw [List.filterMap_append, Tally.noteAll_append]

theorem noted_snoc (h : List (Call × Answer)) (c : Call) (a : Answer) :
    noted (h ++ [(c, a)]) = (noted h).noteAll a.event?.toList := by
  rw [noted_append]
  cases a with
  | polled e => cases e <;> rfl
  | _ => rfl

theorem begins_of_violation {c : Call} {a : Answer} {v : Violation} (h : a.violation? = some v) :
    begins (c, a) = false := by
  cases a with
  | sent result =>
      cases result with
      | ok bytes => cases h
      | error w => cases c <;> rfl
  | _ => cases c <;> rfl

theorem begins_of_inbound {c : Call} (h : c.isOutbound = false) (a : Answer) :
    begins (c, a) = false := by
  cases c with
  | receive | receiveEof | poll => rfl
  | _ => cases h

/-- What is kept of a request while it is read. -/
def Phase.exchange? : Phase → Option Exchange
  | readingBody x _ | complete x => some x
  | idle | readingHead _ | ended | closing => none

namespace Machine

theorem noted_history (m : Machine) (cs : List Call) :
    noted (m.history cs) = Tally.noteAll {} (m.events cs) := by
  have hevents : ((m.history cs).filterMap fun e => e.2.event?) = m.events cs := by
    induction cs generalizing m with
    | nil => rfl
    | cons c cs ih =>
        unfold history events calls
        rw [List.filterMap_cons, List.filterMap_cons, ih]
        rfl
  unfold noted
  rw [hevents]

-- =============================================================== paired

/-- What holds of a machine whose events have been noted in `t` and that
has begun `k` answers. -/
structure Paired (m : Machine) (t : Tally) (k : Nat) : Prop where
  valid : m.Valid
  le : k ≤ t.items.length
  owed : m.owed = (t.items.drop k).map Item.exchange
  arriving : ∀ x, m.phase.exchange? = some x → ∃ r, t.arriving = some r ∧ r.exchange = x
  refused : m.phase ≠ .closing → t.refused = none

theorem Paired.start (limits : Limits) : Paired (start limits) {} 0 :=
  ⟨.start limits, Nat.le_refl 0, rfl, nofun, fun _ => rfl⟩

/-- An answer takes what it answers from the front of what is owed. -/
theorem Paired.answer {m n : Machine} {t : Tally} {k j : Nat} (h : Paired m t k) (hv : n.Valid)
    (hj : j ≤ m.owed.length) (ho : n.owed = m.owed.drop j)
    (hp : n.phase = m.phase ∨ n.phase = .closing) : Paired n t (k + j) := by
  refine ⟨hv, ?_, ?_, ?_, ?_⟩
  · have hle := h.le
    rw [h.owed, List.length_map, List.length_drop] at hj
    omega
  · rw [ho, h.owed, ← List.map_drop, List.drop_drop]
  · intro x hx
    rcases hp with hp | hp
    · rw [hp] at hx
      exact h.arriving x hx
    · rw [hp] at hx
      cases hx
  · intro hc
    rcases hp with hp | hp
    · rw [hp] at hc
      exact h.refused hc
    · exact absurd hp hc

/-- Where nothing is answered, what is owed stays. -/
theorem Paired.congr {m n : Machine} {t : Tally} {k : Nat} (h : Paired m t k) (hv : n.Valid)
    (ho : n.owed = m.owed) (hp : n.phase = m.phase ∨ n.phase = .closing) : Paired n t k :=
  h.answer (j := 0) hv (Nat.zero_le _) ho hp

/-- An item that is noted is owed an answer, after all others. -/
theorem Paired.owe {m n : Machine} {t t' : Tally} {k : Nat} {item : Item} (h : Paired m t k)
    (hv : n.Valid) (hi : t'.items = t.items ++ [item]) (ho : n.owed = m.owed ++ [item.exchange])
    (hb : n.phase = .ended ∧ t'.refused = none ∨ n.phase = .closing) : Paired n t' k := by
  have hle := h.le
  refine ⟨hv, ?_, ?_, ?_, ?_⟩
  · rw [hi, List.length_append]
    omega
  · rw [ho, h.owed, hi, List.drop_append_of_le_length hle, List.map_append, List.map_singleton]
  · intro x hx
    rcases hb with ⟨hp, -⟩ | hp
    · rw [hp] at hx
      cases hx
    · rw [hp] at hx
      cases hx
  · intro hc
    rcases hb with ⟨-, hr⟩ | hp
    · exact hr
    · exact absurd hp hc

theorem exchange?_acceptHead (m : Machine) (head : Head) (consumed : Nat) :
    (m.acceptHead head consumed).phase.exchange? = some (.ofHead head) := by
  rcases phase_acceptHead m head consumed with ⟨hp, -⟩ | hp
  · rw [hp]
    rfl
  · rw [hp]
    rfl

theorem exchange?_acceptChunk (m : Machine) (x : Exchange) (r : Nat) :
    (m.acceptChunk x r).phase.exchange? = some x := by
  rcases phase_acceptChunk m x r with ⟨hp, -⟩ | hp
  · rw [hp]
    rfl
  · rw [hp]
    rfl

/-- A poll notes at most one item, and owes it an answer. -/
theorem Paired.poll {m n : Machine} {t : Tally} {k : Nat} {e : Option Event} (h : Paired m t k)
    (hp : Polls m e n) :
    Paired n (t.noteAll e.toList) k ∧
      ∃ more : List Item, (t.noteAll e.toList).items = t.items ++ more ∧
        more.length = if asks (.poll, .polled e) then 1 else 0 := by
  have hv := hp.valid h.valid
  have same {t' : Tally} (hi : t'.items = t.items) :
      ∃ more : List Item, t'.items = t.items ++ more ∧ more.length = 0 :=
    ⟨[], hi.trans (List.append_nil _).symm, rfl⟩
  cases hp with
  | closed hp => exact ⟨h, same rfl⟩
  | last hp hc => exact ⟨h.congr hv rfl (Or.inr rfl), same rfl⟩
  | waits hs he =>
      refine ⟨⟨hv, h.le, hs.owed_eq.trans h.owed, ?_, ?_⟩, same rfl⟩
      · intro x hx
        cases hs with
        | between => cases hx
        | head => cases hx
        | body => exact h.arriving x hx
      · intro _
        apply h.refused
        cases hs with
        | between hb => exact hb.ne_closing
        | head hf => exact hf.ne_closing.1
        | body _ _ hp => rw [hp]; nofun
  | peerClosed hs he => exact ⟨⟨hv, h.le, h.owed, nofun, fun hc => absurd rfl hc⟩, same rfl⟩
  | @head n head consumed hf hr =>
      refine ⟨⟨hv, h.le, hf.owed_eq.trans h.owed, ?_, fun _ => h.refused hf.ne_closing.1⟩,
        same rfl⟩
      intro x hx
      rw [exchange?_acceptHead] at hx
      exact ⟨head.request [], rfl, Option.some.inj hx⟩
  | @rejected n e hf hr hne =>
      have hi := Tally.items_rejected (h.refused hf.ne_closing.1) e
      refine ⟨h.owe hv hi ?_ (Or.inr rfl), _, hi, rfl⟩
      show n.owed ++ [.rejected] = _
      rw [hf.owed_eq]
      rfl
  | chunk x r hp hb =>
      obtain ⟨q, ha, hq⟩ := h.arriving x (by rw [hp]; rfl)
      have hopen : m.phase ≠ .closing := by rw [hp]; nofun
      refine ⟨⟨hv, h.le, h.owed, ?_, fun _ => h.refused hopen⟩, same rfl⟩
      intro y hy
      rw [exchange?_acceptChunk] at hy
      refine ⟨{ q with body := q.body ++ m.buffer.take r }, ?_, hq.trans (Option.some.inj hy)⟩
      show t.arriving.map _ = _
      rw [ha]
      rfl
  | messageEnd x hp =>
      obtain ⟨q, ha, rfl⟩ := h.arriving x (by rw [hp]; rfl)
      have hr := h.refused (by rw [hp]; nofun)
      have hi := Tally.items_messageEnd ha hr
      refine ⟨h.owe hv hi rfl (Or.inl ⟨rfl, ?_⟩), _, hi, rfl⟩
      show (t.note .messageEnd).refused = none
      unfold Tally.note
      rw [ha]
      exact hr

/-- An answer that is begun is one that was owed. -/
theorem Paired.write {m n : Machine} {t : Tally} {k : Nat} {c : Call} {a : Answer}
    (h : Paired m t k) (hv : n.Valid) (hc : c.isOutbound = true) (hw : Writes m c a n) :
    Paired n t (k + if begins (c, a) then 1 else 0) := by
  have one {x : Exchange} {rest : List Exchange} (hx : m.owed = x :: rest) :
      1 ≤ m.owed.length ∧ rest = m.owed.drop 1 := by
    rw [hx]
    exact ⟨Nat.succ_pos _, rfl⟩
  cases hw with
  | begun status headers length ho hx hf =>
      exact h.answer hv (one hx).1 (one hx).2 (Or.inl rfl)
  | added data ho hle => exact h.congr hv rfl (Or.inl rfl)
  | @finished declared suppress close ho =>
      refine h.congr hv ?_ ?_
      · cases close <;> rfl
      · cases close
        · exact Or.inl rfl
        · exact Or.inr rfl
  | whole r ho hx hf =>
      refine h.answer hv (one hx).1 ?_ ?_
      · split <;> rfl
      · split
        · exact Or.inr rfl
        · exact Or.inl rfl
  | refused v ho hv' =>
      rw [begins_of_violation hv']
      exact h.congr hv rfl (Or.inl rfl)
  | failed v ho hv' =>
      rw [begins_of_violation hv']
      exact h.congr hv rfl (Or.inr rfl)
  | elsewhere ho =>
      rw [hc] at ho
      cases ho

/-- Every call keeps the pairing, and notes an item just if its event asks
for an answer. -/
theorem Paired.call {m : Machine} {t : Tally} {k : Nat} (h : Paired m t k) (c : Call) :
    Paired (m.call c).2 (t.noteAll (m.call c).1.event?.toList)
        (k + if begins (c, (m.call c).1) then 1 else 0) ∧
      ∃ more : List Item,
        (t.noteAll (m.call c).1.event?.toList).items = t.items ++ more ∧
          more.length = if asks (c, (m.call c).1) then 1 else 0 := by
  have hv := h.valid.call c
  have hw := writes h.valid c
  have quiet : ∃ more : List Item, t.items = t.items ++ more ∧ more.length = 0 :=
    ⟨[], (List.append_nil _).symm, rfl⟩
  cases c with
  | receive data =>
      obtain ⟨hphase, howed, -, -⟩ := m.arrive_frame data false
      exact ⟨h.congr hv howed (Or.inl hphase), quiet⟩
  | receiveEof => exact ⟨h.congr hv rfl (Or.inl rfl), quiet⟩
  | poll => exact h.poll (polls h.valid)
  | startResponse status headers length => exact ⟨h.write hv rfl hw, quiet⟩
  | sendBody data => exact ⟨h.write hv rfl hw, quiet⟩
  | finishResponse => exact ⟨h.write hv rfl hw, quiet⟩
  | sendResponse r => exact ⟨h.write hv rfl hw, quiet⟩

/-- The pairing holds after every run. -/
theorem paired_calls (limits : Limits) (cs : List Call) :
    Paired ((start limits).calls cs).2 (noted ((start limits).history cs))
        (((start limits).history cs).countP begins) ∧
      (noted ((start limits).history cs)).items.length
        = ((start limits).history cs).countP asks := by
  refine history_induction (m := start limits)
    (P := fun h n => Paired n (noted h) (h.countP begins) ∧
      (noted h).items.length = h.countP asks) ⟨.start limits, rfl⟩ ?_ cs
  rintro h n c ⟨hp, hlen⟩
  obtain ⟨hp', more, hi, hmore⟩ := hp.call c
  rw [noted_snoc, List.countP_append, List.countP_append, List.countP_singleton,
    List.countP_singleton]
  refine ⟨hp', ?_⟩
  rw [hi, List.length_append, hlen, hmore]

/-- The items of a run stay what they are as it goes on. -/
theorem items_prefix (limits : Limits) (cs ds : List Call) :
    (noted ((start limits).history cs)).items
      <+: (noted ((start limits).history (cs ++ ds))).items := by
  induction ds using List.reverseRecOn with
  | nil => exact ⟨[], by simp only [List.append_nil]⟩
  | append_singleton ds c ih =>
      obtain ⟨-, more, hi, -⟩ := (paired_calls limits (cs ++ ds)).1.call c
      rw [← List.append_assoc, history_concat, noted_snoc, hi]
      exact ih.trans (List.prefix_append _ _)

-- =============================================================== decided

/-- What was decided of the answer that is under way, if one is, as it
began: the length of its body, whether that stays off the wire, and
whether the connection ends with it. -/
def Decided (m : Machine) (p : Nat → Bool → Bool → Prop) : Prop :=
  ∀ declared written suppress close,
    m.outbound = .sending declared written suppress close → p declared suppress close

/-- Nothing is decided again until another answer is begun. -/
theorem Decided.write {m n : Machine} {c : Call} {a : Answer} {p : Nat → Bool → Bool → Prop}
    (h : m.Decided p) (hw : Writes m c a n) (hb : begins (c, a) = false) : n.Decided p := by
  intro declared written suppress close hs
  cases hw with
  | begun => cases hb
  | @added data d w s' c' ho hle =>
      cases hs
      exact h _ _ _ _ ho
  | @finished d s' c' ho => cases c' <;> cases hs
  | whole => cases hb
  | refused => exact h _ _ _ _ hs
  | failed => cases hs
  | elsewhere ho heq => exact h _ _ _ _ (heq.symm.trans hs)

/-- While no other answer is begun, what was decided of the one under way
stays so. -/
theorem Decided.calls {m : Machine} {p : Nat → Bool → Bool → Prop} (h : m.Decided p)
    (hv : m.Valid) {cs : List Call} (hb : ∀ e ∈ m.history cs, begins e = false) :
    (m.calls cs).2.Valid ∧ (m.calls cs).2.Decided p := by
  induction cs generalizing m with
  | nil => exact ⟨hv, h⟩
  | cons c cs ih =>
      have hfirst := h.write (writes hv c) (hb _ List.mem_cons_self)
      exact ih hfirst (hv.call c) fun e he => hb e (List.mem_cons_of_mem _ he)

/-- What is given of the body is no longer than was decided, and goes on
the wire or does not, as was decided. -/
theorem Decided.sendBody {m : Machine} {p : Nat → Bool → Bool → Prop} (h : m.Decided p)
    (hv : m.Valid) {data bytes : Bytes} (hok : (m.sendBody data).1 = .ok bytes) :
    ∃ declared suppress close, p declared suppress close ∧ data.length ≤ declared ∧
      bytes = if suppress then [] else data := by
  have hw : Writes m (.sendBody data) (.sent (.ok bytes)) (m.sendBody data).2 :=
    hok ▸ writes hv (.sendBody data)
  generalize (m.sendBody data).2 = n at hw
  cases hw with
  | added _ ho hle => exact ⟨_, _, _, h _ _ _ _ ho, by omega, rfl⟩
  | refused v _ hv => cases hv
  | failed v _ hv => cases hv
  | elsewhere ho => cases ho

/-- How the answer that is under way, if one is, is framed. -/
def Bound (m : Machine) (suppress close : Bool) : Prop :=
  ∀ declared written s c, m.outbound = .sending declared written s c → s = suppress ∧ c = close

theorem bound_iff {m : Machine} {suppress close : Bool} :
    Bound m suppress close ↔ m.Decided fun _ s c => s = suppress ∧ c = close :=
  Iff.rfl

/-- While no other answer is begun, the one under way stays framed as it
is. -/
theorem Bound.calls {m : Machine} {suppress close : Bool} (h : Bound m suppress close)
    (hv : m.Valid) {cs : List Call} (hb : ∀ e ∈ m.history cs, begins e = false) :
    (m.calls cs).2.Valid ∧ Bound (m.calls cs).2 suppress close :=
  Decided.calls (bound_iff.1 h) hv hb

theorem Bound.sendBody {m : Machine} {suppress close : Bool} (h : Bound m suppress close)
    (hv : m.Valid) {data bytes : Bytes} (hok : (m.sendBody data).1 = .ok bytes) :
    bytes = if suppress then [] else data := by
  obtain ⟨_, _, _, ⟨rfl, -⟩, -, hbytes⟩ := Decided.sendBody (bound_iff.1 h) hv hok
  exact hbytes

theorem Bound.finishResponse {m : Machine} {suppress close : Bool} (h : Bound m suppress close)
    (hv : m.Valid) (hok : m.finishResponse.1 = .ok ()) :
    m.finishResponse.2.isWriteClosed = close := by
  have hw : Writes m .finishResponse (.finished (.ok ())) m.finishResponse.2 :=
    hok ▸ writes hv .finishResponse
  generalize m.finishResponse.2 = n at hw
  cases hw with
  | @finished declared s c ho =>
      rw [← (h _ _ _ _ ho).2]
      cases c with
      | true => rfl
      | false => rfl
  | refused v _ hv => cases hv
  | failed v _ hv => cases hv
  | elsewhere ho => cases ho

end Machine

-- =============================================================== framing

/-- How an answer with this status, these headers and a body of this length
is framed if `m` begins it for an item: whether its body stays off the
wire, whether the connection ends with it, and which header lines are
added. -/
structure FramedFor (m : Machine) (item : Item) (status : Status) (headers : Headers)
    (length : Nat) (suppress close : Bool) (added : Headers) : Prop where
  suppress_iff : suppress = true ↔ ∃ r, item = .request r ∧ r.method = .head
  close_iff : close = true ↔
    (∀ r, item = .request r → r.keepAlive = false) ∨ headers.asksClose = true ∨
      m.phase = .closing ∧ m.owed.length = 1
  /-- No more is added than the length and the fate of the connection, -/
  added_eq : added = lengthLine status headers length
    ++ connectionLine headers close item.exchange.http10
  /-- and that it is kept alive only where the peer would not expect it. -/
  keepAlive_iff : ⟨"connection", "keep-alive"⟩ ∈ added ↔
    close = false ∧ (∃ r, item = .request r ∧ r.version = .http10) ∧ headers.asksKeepAlive = false

namespace Item

theorem headOnly_iff (item : Item) :
    item.exchange.headOnly = true ↔ ∃ r, item = .request r ∧ r.method = .head := by
  cases item with
  | request r => simp [exchange, Request.exchange]
  | rejected e => simp [exchange, Exchange.rejected]

theorem http10_iff (item : Item) :
    item.exchange.http10 = true ↔ ∃ r, item = .request r ∧ r.version = .http10 := by
  cases item with
  | request r => simp [exchange, Request.exchange]
  | rejected e => simp [exchange, Exchange.rejected]

theorem not_keepAlive_iff (item : Item) :
    item.exchange.keepAlive = false ↔ ∀ r, item = .request r → r.keepAlive = false := by
  cases item with
  | request r => simp [exchange, Request.exchange]
  | rejected e => simp [exchange, Exchange.rejected]

end Item

theorem keepAlive_mem_iff (status : Status) (headers : Headers) (length : Nat)
    (close http10 : Bool) :
    ⟨"connection", "keep-alive"⟩
        ∈ lengthLine status headers length ++ connectionLine headers close http10 ↔
      close = false ∧ http10 = true ∧ headers.asksKeepAlive = false := by
  have hlength : ⟨"connection", "keep-alive"⟩ ∉ lengthLine status headers length := by
    intro hm
    have hname : "connection" = "content-length" :=
      congrArg Header.name (eq_of_mem_lengthLine hm).2
    exact absurd hname (by decide)
  rw [List.mem_append, or_iff_right hlength]
  unfold connectionLine
  split
  · next hc =>
    rw [Bool.and_eq_true] at hc
    constructor
    · intro hm
      exact absurd (List.mem_singleton.1 hm) (by decide)
    · rintro ⟨hopen, -⟩
      cases hc.1.symm.trans hopen
  · split
    · next hk =>
      simp only [Bool.and_eq_true, Bool.not_eq_true'] at hk
      exact ⟨fun _ => ⟨hk.1.1, hk.1.2, hk.2⟩, fun _ => List.mem_cons_self⟩
    · next hk =>
      simp only [Bool.and_eq_true, Bool.not_eq_true'] at hk
      constructor
      · intro hm
        cases hm
      · rintro ⟨hc, h10, ha⟩
        exact absurd ⟨⟨hc, h10⟩, ha⟩ hk

namespace Machine

/-- An answer to an item is framed for it. -/
theorem framedFor_exchange (m : Machine) (item : Item) (status : Status) (headers : Headers)
    (length : Nat) :
    FramedFor m item status headers length item.exchange.headOnly
      (m.closesAfter item.exchange headers)
      (lengthLine status headers length
        ++ connectionLine headers (m.closesAfter item.exchange headers) item.exchange.http10) := by
  refine ⟨item.headOnly_iff, ?_, rfl, ?_⟩
  · rw [← item.not_keepAlive_iff]
    unfold closesAfter
    simp only [Bool.or_eq_true, Bool.and_eq_true, beq_iff_eq, Bool.not_eq_true']
    constructor
    · rintro ((h | h) | h)
      · exact Or.inr (Or.inr h)
      · exact Or.inl h
      · exact Or.inr (Or.inl h)
    · rintro (h | h | h)
      · exact Or.inl (Or.inr h)
      · exact Or.inr h
      · exact Or.inl (Or.inl h)
  · rw [keepAlive_mem_iff, item.http10_iff]

/-- What is owed first is owed to the item whose number is that of the
answers begun. -/
theorem Paired.first {m : Machine} {t : Tally} {k : Nat} (h : Paired m t k) {x : Exchange}
    {rest : List Exchange} (hx : m.owed = x :: rest) :
    ∃ item, t.items[k]? = some item ∧ item.exchange = x := by
  have hhead : m.owed[0]? = some x := by
    rw [hx]
    rfl
  rw [h.owed, List.getElem?_map, List.getElem?_drop, Option.map_eq_some_iff] at hhead
  exact hhead

theorem Paired.startResponse {m : Machine} {t : Tally} {k : Nat} (h : Paired m t k)
    {status : Status} {headers : Headers} {length : Nat} {head : Bytes}
    (hok : (m.startResponse status headers length).1 = .ok head) :
    ∃ item suppress close added, t.items[k]? = some item ∧
      FramedFor m item status headers length suppress close added ∧
      head = renderHead status (headers ++ added) ∧
      (length < Text.Decimal.wordSize →
        Received.fields? head = some (headers ++ added, [])) ∧
      Bound (m.startResponse status headers length).2 suppress close := by
  obtain ⟨ho, hf, x, rest, hx⟩ := due_of_startResponse hok
  obtain ⟨item, hi, rfl⟩ := h.first hx
  rw [startResponse_of_fit ho hx hf rfl] at hok ⊢
  obtain rfl := Except.ok.inj hok
  refine ⟨item, _, _, _, hi, framedFor_exchange m item status headers length, ?_, ?_, ?_⟩
  · rw [← outboundHeaders_eq]
  · intro hl
    rw [← outboundHeaders_eq]
    exact fields?_outboundHeaders hf hl _ _
  · intro declared written s c hs
    cases hs
    exact ⟨rfl, rfl⟩

theorem Paired.sendResponse {m : Machine} {t : Tally} {k : Nat} (h : Paired m t k) {r : Response}
    {bytes : Bytes} (hok : (m.sendResponse r).1 = .ok bytes) :
    ∃ item suppress close added, t.items[k]? = some item ∧
      FramedFor m item r.status r.headers r.body.length suppress close added ∧
      bytes = renderHead r.status (r.headers ++ added) ++ (if suppress then [] else r.body) ∧
      (r.body.length < Text.Decimal.wordSize → Received.fields? bytes
        = some (r.headers ++ added, if suppress then [] else r.body)) ∧
      (m.sendResponse r).2.isWriteClosed = close := by
  obtain ⟨ho, hf, x, rest, hx⟩ := due_of_sendResponse hok
  obtain ⟨item, hi, rfl⟩ := h.first hx
  rw [sendResponse_of_fit ho hx hf rfl] at hok ⊢
  obtain rfl := Except.ok.inj hok
  refine ⟨item, _, _, _, hi, framedFor_exchange m item r.status r.headers r.body.length, ?_, ?_,
    ?_⟩
  · rw [← outboundHeaders_eq]
    rfl
  · intro hl
    rw [← outboundHeaders_eq]
    obtain ⟨-, hfits, -⟩ := fits_of_headFault? hf
    exact Received.fields?_renderHead r.status (fits_outboundHeaders r.status hfits hl _ _) _
  · cases m.closesAfter item.exchange r.headers with
    | true => rfl
    | false => simp [isWriteClosed, served, ho]

/-- However a machine is called, it owes as many answers as its events
have asked for, less those that have been begun; and the next answer that
is begun, be it in pieces or whole, is framed for the oldest item that is
still owed one. Its head has the headers that were given and the lines
that are added, and is read back as such. What is sent of it, and whether
the connection ends with it, is as it was framed, whatever else is called
in between. -/
theorem begun_in_order (limits : Limits) (cs : List Call) :
    let h := (start limits).history cs
    let m := ((start limits).calls cs).2
    (∀ more, (noted h).items <+: (noted ((start limits).history (cs ++ more))).items) ∧
      (noted h).items.length = h.countP asks ∧ h.countP begins ≤ h.countP asks ∧
      m.owed.length = h.countP asks - h.countP begins ∧
      (∀ status headers length head, (m.startResponse status headers length).1 = .ok head →
        ∃ item suppress close added, (noted h).items[h.countP begins]? = some item ∧
          FramedFor m item status headers length suppress close added ∧
          head = renderHead status (headers ++ added) ∧
          (length < Text.Decimal.wordSize →
            Received.fields? head = some (headers ++ added, [])) ∧
          ∀ during, (∀ e ∈ (m.startResponse status headers length).2.history during,
              begins e = false) →
            let n := ((m.startResponse status headers length).2.calls during).2
            (∀ data bytes, (n.sendBody data).1 = .ok bytes →
              bytes = if suppress then [] else data) ∧
            (n.finishResponse.1 = .ok () → n.finishResponse.2.isWriteClosed = close)) ∧
      ∀ r bytes, (m.sendResponse r).1 = .ok bytes →
        ∃ item suppress close added, (noted h).items[h.countP begins]? = some item ∧
          FramedFor m item r.status r.headers r.body.length suppress close added ∧
          bytes = renderHead r.status (r.headers ++ added) ++ (if suppress then [] else r.body) ∧
          (r.body.length < Text.Decimal.wordSize → Received.fields? bytes
            = some (r.headers ++ added, if suppress then [] else r.body)) ∧
          (m.sendResponse r).2.isWriteClosed = close := by
  obtain ⟨hp, hlen⟩ := paired_calls limits cs
  have hgrow := items_prefix limits cs
  dsimp only
  refine ⟨hgrow, ?_⟩
  generalize (start limits).history cs = h at hp hlen
  generalize ((start limits).calls cs).2 = m at hp
  refine ⟨hlen, hlen ▸ hp.le, ?_, ?_, ?_⟩
  · rw [hp.owed, List.length_map, List.length_drop, hlen]
  · intro status headers length head hok
    obtain ⟨item, suppress, close, added, hi, hframed, hhead, hread, hbound⟩ :=
      hp.startResponse hok
    refine ⟨item, suppress, close, added, hi, hframed, hhead, hread, ?_⟩
    intro during hb
    have hv := hp.valid.call (.startResponse status headers length)
    obtain ⟨hv', hbound'⟩ := hbound.calls hv hb
    exact ⟨fun data bytes hok => hbound'.sendBody hv' hok, hbound'.finishResponse hv'⟩
  · intro r bytes hok
    exact hp.sendResponse hok

/-- After a request that has been answered a `HEAD` of version 1.0: what is
given as the body of its answer stays off the wire, and its head is read
back with the lines that are added. -/
theorem begun_in_order_head :
    ∃ (cs : List Call) (head : Bytes) (item : Item) (close : Bool) (added : Headers),
      ((start {}).history cs).countP asks = 2 ∧ ((start {}).history cs).countP begins = 1 ∧
        (((start {}).calls cs).2.startResponse .ok [] 3).1 = .ok head ∧
        (noted ((start {}).history cs)).items[1]? = some item ∧
        FramedFor ((start {}).calls cs).2 item .ok [] 3 true close added ∧
        head = renderHead .ok added ∧ Received.fields? head = some (added, []) := by
  have hrun : ∃ cs : List Call,
      ((start {}).history cs).countP asks = 2 ∧ ((start {}).history cs).countP begins = 1 ∧
        (((start {}).calls cs).2.startResponse .ok [] 3).1.toBool = true ∧
        ((((start {}).calls cs).2.startResponse .ok [] 3).2.sendBody [1, 2, 3]).1 = .ok [] :=
    ⟨[.receive (Text.Utf8.encode
        "GET / HTTP/1.1\r\n\r\nHEAD / HTTP/1.0\r\nConnection: keep-alive\r\n\r\n"),
      .poll, .poll, .poll, .sendResponse { status := .notFound, headers := [], body := [13] },
      .poll], by decide +kernel⟩
  obtain ⟨cs, hasks, hbegins, hstart, hbody⟩ := hrun
  obtain ⟨-, -, -, -, hstarted, -⟩ := begun_in_order {} cs
  cases hhead : (((start {}).calls cs).2.startResponse .ok [] 3).1 with
  | error v =>
      rw [hhead] at hstart
      cases hstart
  | ok head =>
      obtain ⟨item, suppress, close, added, hi, hframed, hbytes, hread, hduring⟩ :=
        hstarted .ok [] 3 head hhead
      have hsent := (hduring [] nofun).1 [1, 2, 3] [] hbody
      cases suppress with
      | false => cases hsent
      | true =>
          rw [hbegins] at hi
          exact ⟨cs, head, item, close, added, hasks, hbegins, hhead, hi, hframed, hbytes,
            hread (by decide)⟩

end Machine

end WireHttp
