/-
What a stream amounts to. A connection has to answer items: every
request that is complete, in the order of arrival, and after them the
head that was refused, if one was. `Tally` collects them from events;
`items` are those of a stream.

Two things are shown of them. Which items there are depends on the bytes
alone and only grows with them (`items_mono`), and the end of the
stream adds none (`items_tally`): the tally does not see where a body
was broken into chunks, so this is the indifference to arrival.

The other is the invariant `Tallied`, of a machine that has answered
nothing. It owes an answer to each item, in order; every item but the
last can be followed by another; and a machine that reads no more has
either been told of the end of the stream or holds an item that none may
follow (`Tallied.of_atRest`).
-/
import WireHttp.Proofs.Machine.Fragmentation
import WireHttp.Request

namespace WireHttp

-- ================================================================ items

/-- The next element makes a prefix longer. -/
theorem prefix_concat {α : Type} {front whole : List α} {a : α} (h : front <+: whole)
    (ha : whole[front.length]? = some a) : front ++ [a] <+: whole := by
  obtain ⟨rest, rfl⟩ := h
  rw [List.getElem?_append_right (Nat.le_refl _), Nat.sub_self] at ha
  cases rest with
  | nil => cases ha
  | cons b rest =>
      cases ha
      rw [List.prefix_append_right_inj]
      exact List.prefix_append [a] rest

/-- An element of a list that is longer by one. -/
theorem getElem?_concat {α : Type} {front : List α} {a b : α} {i : Nat}
    (h : (front ++ [a])[i]? = some b) : front[i]? = some b ∨ i = front.length ∧ b = a := by
  by_cases hlt : i < front.length
  · rw [List.getElem?_append_left hlt] at h
    exact Or.inl h
  · rw [List.getElem?_append_right (Nat.le_of_not_lt hlt)] at h
    have hi := (List.getElem?_eq_some_iff.1 h).1
    rw [List.length_singleton] at hi
    obtain rfl : i = front.length := by omega
    rw [Nat.sub_self] at h
    cases h
    exact Or.inr ⟨rfl, rfl⟩

/-- What the framing of the answer to a request has to know of it. -/
def Request.exchange (r : Request) : Exchange where
  headOnly := r.method == .head
  keepAlive := r.keepAlive
  http10 := r.version == .http10

/-- A request of which `body` has arrived. -/
def Head.request (head : Head) (body : Bytes) : Request where
  method := head.method
  target := head.target
  version := head.version
  headers := head.headers
  body := body

/-- Something that has to be answered. -/
inductive Item
  | request (request : Request)
  | rejected (error : HeadError)
  deriving DecidableEq, Repr

namespace Item

/-- What the framing of the answer has to know of an item. -/
def exchange : Item → Exchange
  | request r => r.exchange
  | rejected _ => .rejected

/-- Whether another item may follow. -/
def keepAlive (item : Item) : Bool :=
  item.exchange.keepAlive

end Item

-- ================================================================ tally

/-- What events have amounted to. -/
structure Tally where
  /-- The requests that are complete, oldest first. -/
  requests : List Request := []
  /-- The request that is arriving, with what has arrived of its body. -/
  arriving : Option Request := none
  /-- Why a head was refused. -/
  refused : Option HeadError := none
  peerClosed : Bool := false

namespace Tally

/-- What has to be answered: the requests, and then the refused head. -/
def items (t : Tally) : List Item :=
  t.requests.map .request ++ t.refused.toList.map .rejected

/-- Takes note of one event. -/
def note (t : Tally) : Event → Tally
  | .head head => { t with arriving := some (head.request []) }
  | .chunk data =>
    { t with arriving := t.arriving.map fun r => { r with body := r.body ++ data } }
  | .messageEnd =>
    match t.arriving with
    | some r => { t with requests := t.requests ++ [r], arriving := none }
    | none => t
  | .peerClosed => { t with peerClosed := true }
  | .rejected e => { t with arriving := none, refused := some e }

/-- Takes note of events, the first one first. -/
def noteAll (t : Tally) (es : List Event) : Tally :=
  es.foldl note t

theorem noteAll_append (t : Tally) (es es' : List Event) :
    t.noteAll (es ++ es') = (t.noteAll es).noteAll es' :=
  List.foldl_append

theorem noteAll_attach (t : Tally) (e : Event) (es : List Event) :
    t.noteAll (e.attach es) = (t.note e).noteAll es := by
  cases e with
  | chunk a =>
      cases es with
      | nil => rfl
      | cons e es =>
          cases e with
          | chunk b =>
              show (t.note (.chunk (a ++ b))).noteAll es
                = ((t.note (.chunk a)).note (.chunk b)).noteAll es
              unfold note
              cases t.arriving with
              | none => rfl
              | some r => simp only [Option.map_some, List.append_assoc]
          | _ => rfl
  | _ => rfl

/-- Where a body was broken into chunks does not show. -/
theorem noteAll_joinChunks (t : Tally) (es : List Event) :
    t.noteAll (Event.joinChunks es) = t.noteAll es := by
  induction es generalizing t with
  | nil => rfl
  | cons e es ih => rw [Event.joinChunks, noteAll_attach, ih]; rfl

theorem noteAll_congr {a b : List Event × Machine} (h : Alike a b) (t : Tally) :
    t.noteAll a.1 = t.noteAll b.1 := by
  rw [← noteAll_joinChunks, h.events, noteAll_joinChunks]

theorem requests_prefix_note (t : Tally) (e : Event) : t.requests <+: (t.note e).requests := by
  unfold note
  split
  · exact List.prefix_refl _
  · exact List.prefix_refl _
  · split
    · exact List.prefix_append _ _
    · exact List.prefix_refl _
  · exact List.prefix_refl _
  · exact List.prefix_refl _

theorem requests_prefix_noteAll (t : Tally) (es : List Event) :
    t.requests <+: (t.noteAll es).requests := by
  induction es generalizing t with
  | nil => exact List.prefix_refl _
  | cons e es ih => exact (t.requests_prefix_note e).trans (ih (t.note e))

theorem items_messageEnd {t : Tally} {r : Request} (ha : t.arriving = some r)
    (hr : t.refused = none) : (t.note .messageEnd).items = t.items ++ [.request r] := by
  unfold items note
  rw [ha]
  simp [hr]

theorem items_rejected {t : Tally} (hr : t.refused = none) (e : HeadError) :
    (t.note (.rejected e)).items = t.items ++ [.rejected e] := by
  unfold items note
  simp [hr]

end Tally

namespace Machine

-- ============================================================ invariant

/-- Nothing has been noted after which no request may come. -/
structure Kept (t : Tally) : Prop where
  requests : ∀ r ∈ t.requests, r.keepAlive = true
  refused : t.refused = none
  peerClosed : t.peerClosed = false

/-- What has been noted, told by the phase. -/
inductive Place (m : Machine) (t : Tally) : Prop
  | clear : (m.phase = .idle ∨ ∃ k, m.phase = .readingHead k) → Kept t →
      m.mustClose = false → t.arriving = none → Place m t
  | within (r : Request) :
      (m.phase = .complete r.exchange ∨ ∃ k, m.phase = .readingBody r.exchange k) → Kept t →
      m.mustClose = !r.keepAlive → t.arriving = some r → Place m t
  | ended (front : Tally) (r : Request) : m.phase = .ended → Kept front →
      t = { front with requests := front.requests ++ [r], arriving := none } →
      m.mustClose = !r.keepAlive → Place m t
  | last (front : List Item) (item : Item) : m.phase = .closing → t.items = front ++ [item] →
      (∀ i ∈ front, i.keepAlive = true) → item.keepAlive = false → t.peerClosed = false →
      Place m t
  | peerClosed : m.phase = .closing → m.eof = true → (∀ i ∈ t.items, i.keepAlive = true) →
      t.peerClosed = true → Place m t

/-- What holds of a machine whose events since the start have been noted
in `t`, while it has answered nothing. -/
structure Tallied (m : Machine) (t : Tally) : Prop where
  valid : m.Valid
  owed : m.owed = t.items.map Item.exchange
  place : Place m t

theorem Tallied.start (limits : Limits) : Tallied (start limits) {} :=
  ⟨.start limits, rfl, .clear (Or.inl rfl) ⟨nofun, rfl, rfl⟩ rfl rfl⟩

theorem Kept.keepAlive_of_mem {t : Tally} (h : Kept t) {item : Item} (hi : item ∈ t.items) :
    item.keepAlive = true := by
  unfold Tally.items at hi
  rw [h.refused, Option.toList_none, List.map_nil, List.append_nil] at hi
  obtain ⟨r, hr, rfl⟩ := List.mem_map.1 hi
  exact h.requests r hr

/-- No head has been read whose request is not yet noted, and another
may come. -/
def Due (m : Machine) : Prop :=
  m.phase = .idle ∨ (∃ k, m.phase = .readingHead k) ∨ m.phase = .ended ∧ m.mustClose = false

theorem Between.due {m : Machine} (h : m.Between) : m.Due :=
  h.imp id Or.inr

theorem Facing.due {m n : Machine} (h : Facing m n) : m.Due := by
  cases h with
  | begun h hb => exact h.due
  | resumed k hp => exact Or.inr (Or.inl ⟨k, hp⟩)

/-- Where a head is due, all requests noted may be followed by another. -/
theorem Place.of_due {m : Machine} {t : Tally} (h : Place m t) (hd : m.Due) :
    Kept t ∧ m.mustClose = false ∧ t.arriving = none := by
  cases h with
  | clear hp hk hc ha => exact ⟨hk, hc, ha⟩
  | within r hp =>
      rcases hp with hp | ⟨k, hp⟩
      · simp [Due, hp] at hd
      · simp [Due, hp] at hd
  | ended front r hp hk ht hc =>
      have hopen : m.mustClose = false := by simpa [Due, hp] using hd
      have hr : r.keepAlive = true := by simpa using hc.symm.trans hopen
      subst ht
      refine ⟨⟨?_, hk.refused, hk.peerClosed⟩, hopen, rfl⟩
      intro q hq
      rcases List.mem_append.1 hq with hq | hq
      · exact hk.requests q hq
      · rw [List.mem_singleton.1 hq]
        exact hr
  | last front item hp => simp [Due, hp] at hd
  | peerClosed hp => simp [Due, hp] at hd

/-- While a body is read, its request has been noted as arriving. -/
theorem Place.of_within {m : Machine} {t : Tally} (h : Place m t) {x : Exchange}
    (hp : m.phase = .complete x ∨ ∃ k, m.phase = .readingBody x k) :
    ∃ r, r.exchange = x ∧ Kept t ∧ m.mustClose = !r.keepAlive ∧ t.arriving = some r := by
  cases h with
  | clear hm =>
      rcases hm with hm | ⟨k, hm⟩
      · simp [hm] at hp
      · simp [hm] at hp
  | within r hm hk hc ha =>
      refine ⟨r, ?_, hk, hc, ha⟩
      rcases hm with hm | ⟨k, hm⟩
      · simpa [hm] using hp
      · simpa [hm] using hp
  | ended front r hm => simp [hm] at hp
  | last front item hm => simp [hm] at hp
  | peerClosed hm => simp [hm] at hp

/-- A machine that waits holds only requests that may be followed. -/
theorem Place.of_starved {m n : Machine} {t : Tally} (h : Place m t) (hs : Starved m n) :
    Kept t ∧ Place n t := by
  cases hs with
  | between hb =>
      obtain ⟨hk, hc, ha⟩ := h.of_due hb.due
      exact ⟨hk, .clear (Or.inl rfl) hk hc ha⟩
  | @head n hf hr =>
      obtain ⟨hk, hc, ha⟩ := h.of_due hf.due
      refine ⟨hk, .clear (Or.inr ⟨_, rfl⟩) hk ?_ ha⟩
      rw [← hc]
      cases hf <;> rfl
  | body x r hp hb =>
      obtain ⟨q, -, hk, -⟩ := h.of_within (Or.inr ⟨r, hp⟩)
      exact ⟨hk, h⟩

/-- A request that none may follow is the last. -/
theorem Place.of_ended {m : Machine} {t : Tally} (h : Place m t) (hp : m.phase = .ended)
    (hc : m.mustClose = true) : Place m.enterClosing t := by
  cases h with
  | clear hm => simp [hp] at hm
  | within r hm => simp [hp] at hm
  | ended front r hm hk ht hm' =>
      have hr : r.keepAlive = false := by simpa using hm'.symm.trans hc
      have hitems : t.items = front.items ++ [.request r] := by
        subst ht
        unfold Tally.items
        simp only [hk.refused, Option.toList_none, List.map_nil, List.append_nil, List.map_append,
          List.map_cons]
      refine .last front.items (.request r) rfl hitems (fun i hi => hk.keepAlive_of_mem hi) hr ?_
      rw [ht]
      exact hk.peerClosed
  | last front item hm => cases hp.symm.trans hm
  | peerClosed hm => cases hp.symm.trans hm

theorem Facing.mustClose_eq {m n : Machine} (h : Facing m n) : n.mustClose = m.mustClose := by
  cases h <;> rfl

/-- What a poll brings is noted, and the invariant holds of it. -/
theorem Tallied.poll {m n : Machine} {t : Tally} {e : Option Event} (h : Tallied m t)
    (hp : Polls m e n) : Tallied n (t.noteAll e.toList) := by
  have hv := hp.valid h.valid
  cases hp with
  | closed hp => exact h
  | last hp hc => exact ⟨hv, h.owed, h.place.of_ended hp hc⟩
  | waits hs he => exact ⟨hv, hs.owed_eq.trans h.owed, (h.place.of_starved hs).2⟩
  | peerClosed hs he =>
      have hk := (h.place.of_starved hs).1
      exact ⟨hv, h.owed, .peerClosed rfl he (fun i hi => hk.keepAlive_of_mem hi) rfl⟩
  | @head n head consumed hf hr =>
      obtain ⟨hk, hc, ha⟩ := h.place.of_due hf.due
      refine ⟨hv, hf.owed_eq.trans h.owed,
        .within (head.request []) ?_ ⟨hk.requests, hk.refused, hk.peerClosed⟩ ?_ rfl⟩
      · exact (phase_acceptHead n head consumed).imp And.left fun hphase => ⟨_, hphase⟩
      · show (n.mustClose || !head.keepAlive) = _
        rw [hf.mustClose_eq, hc, Bool.false_or]
        rfl
  | @rejected n e hf hr hne =>
      obtain ⟨hk, hc, ha⟩ := h.place.of_due hf.due
      have hitems := Tally.items_rejected hk.refused e
      refine ⟨hv, ?_, .last t.items (.rejected e) rfl hitems (fun i hi => hk.keepAlive_of_mem hi)
        rfl hk.peerClosed⟩
      show n.owed ++ [.rejected] = (t.note (.rejected e)).items.map Item.exchange
      rw [hf.owed_eq, h.owed, hitems, List.map_append]
      rfl
  | chunk x r hp hb =>
      obtain ⟨q, rfl, hk, hc, ha⟩ := h.place.of_within (Or.inr ⟨r, hp⟩)
      refine ⟨hv, h.owed, .within { q with body := q.body ++ m.buffer.take r } ?_
        ⟨hk.requests, hk.refused, hk.peerClosed⟩ hc ?_⟩
      · exact (phase_acceptChunk m q.exchange r).imp And.left fun hphase => ⟨_, hphase⟩
      · show t.arriving.map _ = _
        rw [ha]
        rfl
  | messageEnd x hp =>
      obtain ⟨q, rfl, hk, hc, ha⟩ := h.place.of_within (Or.inl hp)
      have hn : t.note .messageEnd
          = { t with requests := t.requests ++ [q], arriving := none } := by
        unfold Tally.note
        rw [ha]
      refine ⟨hv, ?_, .ended t q rfl hk hn hc⟩
      show m.owed ++ [q.exchange] = (t.note .messageEnd).items.map Item.exchange
      rw [h.owed, Tally.items_messageEnd ha hk.refused, List.map_append]
      rfl

theorem Tallied.drain {m : Machine} {t : Tally} (h : Tallied m t) :
    Tallied m.drain.2 (t.noteAll m.drain.1) := by
  refine drain_induction (P := fun m es last => ∀ t, Tallied m t → Tallied last (t.noteAll es))
    ?_ ?_ m t h
  · intro m n hp t h
    exact h.poll ((polls_iff h.valid).2 hp)
  · intro m n e hp ih t h
    exact ih (t.note e) (h.poll ((polls_iff h.valid).2 hp))

theorem Place.congr {m n : Machine} {t : Tally} (h : Place m t) (hp : n.phase = m.phase)
    (hc : n.mustClose = m.mustClose) (he : m.eof = true → n.eof = true) : Place n t := by
  cases h with
  | clear hm hk hmc ha => exact .clear (hp ▸ hm) hk (hc.trans hmc) ha
  | within r hm hk hmc ha => exact .within r (hp ▸ hm) hk (hc.trans hmc) ha
  | ended front r hm hk ht hmc => exact .ended front r (hp.trans hm) hk ht (hc.trans hmc)
  | last front item hm hi hf hl hpc => exact .last front item (hp.trans hm) hi hf hl hpc
  | peerClosed hm hm' hk hpc => exact .peerClosed (hp.trans hm) (he hm') hk hpc

theorem arrive_frame (m : Machine) (data : Bytes) (told : Bool) :
    (m.arrive data told).phase = m.phase ∧ (m.arrive data told).owed = m.owed ∧
      (m.arrive data told).mustClose = m.mustClose ∧
      (m.arrive data told).eof = (told || m.eof) := by
  by_cases hc : m.phase = .closing
  · simp [arrive_of_closing hc]
  · simp [arrive_of_open hc]

theorem Tallied.arrive {m : Machine} {t : Tally} (h : Tallied m t) (data : Bytes) (told : Bool) :
    Tallied (m.arrive data told) t := by
  obtain ⟨hphase, howed, hclose, heof⟩ := m.arrive_frame data told
  refine ⟨h.valid.arrive data told, howed.trans h.owed, h.place.congr hphase hclose ?_⟩
  intro he
  rw [heof, he, Bool.or_true]

-- ============================================================== at rest

/-- A drained machine reads no more, or waits. -/
def AtRest (m : Machine) : Prop :=
  m.phase = .closing ∨ ∃ n, Starved m n

theorem Starved.again {m n : Machine} (h : Starved m n) : ∃ o, Starved n o := by
  cases h with
  | between h hb =>
      refine ⟨_, .between (Or.inl rfl) ?_⟩
      unfold IsBlank skipped at hb ⊢
      dsimp only at hb ⊢
      rwa [skipBlankLines_skipBlankLines]
  | head hf hr => exact ⟨_, .head (.resumed _ rfl) hr⟩
  | body x r hp hb => exact ⟨_, .body x r hp hb⟩

/-- A drained machine reads no more, or has just found that it must wait. -/
theorem starved_drain {m : Machine} (hv : m.Valid) :
    m.drain.2.phase = .closing ∨ ∃ o, Starved o m.drain.2 := by
  refine drain_induction
    (P := fun m _ last => m.Valid → last.phase = .closing ∨ ∃ o, Starved o last) ?_ ?_ m hv
  · intro m n hp hv
    have h := (polls_iff hv).2 hp
    cases h with
    | closed hc => exact Or.inl hc
    | last hc => exact Or.inl rfl
    | waits hs he => exact Or.inr ⟨m, hs⟩
  · intro m n e hp ih hv
    have hv' := hv.poll
    rw [hp] at hv'
    exact ih hv'

theorem atRest_drain {m : Machine} (hv : m.Valid) : m.drain.2.AtRest :=
  (starved_drain hv).imp_right fun ⟨_, hs⟩ => hs.again

private theorem Facing.receiveEof {m n : Machine} (h : Facing m n) :
    Facing m.receiveEof n.receiveEof := by
  cases h with
  | begun h hb => exact .begun h hb
  | resumed k hp => exact .resumed k hp

private theorem Starved.receiveEof {m n : Machine} (h : Starved m n) :
    Starved m.receiveEof n.receiveEof := by
  cases h with
  | between h hb => exact .between h hb
  | head hf hr => exact .head hf.receiveEof hr
  | body x r hp hb => exact .body x r hp hb

/-- A machine that waits and is told of the end says so, and reads no
more. -/
theorem drain_receiveEof_of_starved {m n : Machine} (hv : m.Valid) (hs : Starved m n) :
    m.receiveEof.drain = ([.peerClosed], m.receiveEof.enterClosing) := by
  have hpoll := (polls_iff hv.receiveEof).1 (.peerClosed hs.receiveEof rfl)
  have hclosed := (polls_iff (Valid.enterClosing m.receiveEof)).1 (.closed rfl)
  rw [drain_of_some hpoll, drain_of_none hclosed]

/-- A machine at rest that is told of the end has no more to say than
that. -/
theorem drain_receiveEof_of_atRest {m : Machine} (hv : m.Valid) (h : m.AtRest) :
    m.receiveEof.drain.1 = [] ∨ m.receiveEof.drain.1 = [.peerClosed] := by
  rcases h with hc | ⟨n, hs⟩
  · have hpoll := (polls_iff hv.receiveEof).1 (.closed hc)
    rw [drain_of_none hpoll]
    exact Or.inl rfl
  · rw [drain_receiveEof_of_starved hv hs]
    exact Or.inr rfl

/-- At rest, what has been noted may be followed by more, or an item that
none may follow was the last, or the end of the stream is known. -/
theorem Tallied.of_atRest {m : Machine} {t : Tally} (h : Tallied m t) (hr : m.AtRest)
    (he : m.eof = false) :
    (m.phase ≠ .closing ∧ Kept t) ∨
      (m.phase = .closing ∧ t.peerClosed = false ∧ ∃ front item, t.items = front ++ [item] ∧
        (∀ i ∈ front, i.keepAlive = true) ∧ item.keepAlive = false) := by
  rcases hr with hc | ⟨n, hs⟩
  · refine Or.inr ⟨hc, ?_⟩
    cases h.place with
    | clear hm => simp [hc] at hm
    | within r hm => simp [hc] at hm
    | ended front r hm => cases hc.symm.trans hm
    | last front item hm hi hf hl hpc => exact ⟨hpc, front, item, hi, hf, hl⟩
    | peerClosed hm hm' => cases he.symm.trans hm'
  · refine Or.inl ⟨?_, (h.place.of_starved hs).1⟩
    cases hs with
    | between hb => exact hb.ne_closing
    | head hf hr => exact hf.ne_closing.1
    | body x r hp hb => rw [hp]; nofun

-- =============================================================== intake

/-- What comes of bytes that arrive on a new connection, and that may be
the last ones. -/
def intake (limits : Limits) (data : Bytes) (told : Bool) : List Event × Machine :=
  ((start limits).arrive data told).drain

/-- What the bytes of a connection amount to. -/
def tally (limits : Limits) (data : Bytes) (told : Bool) : Tally :=
  Tally.noteAll {} (intake limits data told).1

theorem tallied_intake (limits : Limits) (data : Bytes) (told : Bool) :
    Tallied (intake limits data told).2 (tally limits data told) :=
  ((Tallied.start limits).arrive data told).drain

theorem atRest_intake (limits : Limits) (data : Bytes) (told : Bool) :
    (intake limits data told).2.AtRest :=
  atRest_drain ((Valid.start limits).arrive data told)

theorem starved_intake (limits : Limits) (data : Bytes) (told : Bool) :
    (intake limits data told).2.phase = .closing ∨ ∃ o, Starved o (intake limits data told).2 :=
  starved_drain ((Valid.start limits).arrive data told)

theorem sameFrame_intake (limits : Limits) (data : Bytes) (told : Bool) :
    SameFrame ((start limits).arrive data told) (intake limits data told).2 :=
  (drain_frame ((Valid.start limits).arrive data told)).2

theorem eof_intake (limits : Limits) (data : Bytes) (told : Bool) :
    (intake limits data told).2.eof = told := by
  rw [(sameFrame_intake limits data told).eof, (arrive_frame _ data told).2.2.2]
  exact Bool.or_false told

theorem outbound_intake (limits : Limits) (data : Bytes) (told : Bool) :
    (intake limits data told).2.outbound = .idle := by
  rw [(sameFrame_intake limits data told).outbound, arrive_of_open (m := start limits) nofun]
  rfl

/-- To take in more is to go on from where the taking in has stopped. -/
theorem intake_append (limits : Limits) (a b : Bytes) (told : Bool) :
    Alike (intake limits (a ++ b) told)
      ((intake limits a false).1 ++ ((intake limits a false).2.arrive b told).drain.1,
        ((intake limits a false).2.arrive b told).drain.2) := by
  have h := drain_arrive_of_drain ((Valid.start limits).receive a) rfl b told
  rw [receive_arrive] at h
  exact h

theorem tally_append (limits : Limits) (a b : Bytes) (told : Bool) :
    tally limits (a ++ b) told
      = (tally limits a false).noteAll ((intake limits a false).2.arrive b told).drain.1 := by
  unfold tally
  rw [Tally.noteAll_congr (intake_append limits a b told), Tally.noteAll_append]

end Machine

/-- What has to be answered of a stream. -/
def items (limits : Limits) (data : Bytes) : List Item :=
  (Machine.tally limits data false).items

namespace Machine

/-- That the stream has ended is all that may be said of it then. -/
theorem tally_told (limits : Limits) (data : Bytes) (told : Bool) :
    tally limits data told = tally limits data false ∨
      tally limits data told = (tally limits data false).note .peerClosed := by
  cases told with
  | false => exact Or.inl rfl
  | true =>
      have h := tally_append limits data [] true
      rw [List.append_nil, arrive_true, receive_nil] at h
      have hv := (tallied_intake limits data false).valid
      rw [h]
      rcases drain_receiveEof_of_atRest hv (atRest_intake limits data false) with hd | hd
      · rw [hd]
        exact Or.inl rfl
      · rw [hd]
        exact Or.inr rfl

/-- The end of the stream is no item. -/
theorem items_tally (limits : Limits) (data : Bytes) (told : Bool) :
    (tally limits data told).items = items limits data := by
  rcases tally_told limits data told with h | h
  · rw [h]
    rfl
  · rw [h]
    rfl

/-- A machine that reads no more brings no event. -/
theorem drain_of_closing {m : Machine} (hv : m.Valid) (hc : m.phase = .closing) :
    m.drain = ([], m) :=
  drain_of_none ((polls_iff hv).1 (.closed hc))

end Machine

/-- The items of a stream stay what they are as it grows. -/
theorem items_mono (limits : Limits) (a b : Bytes) : items limits a <+: items limits (a ++ b) := by
  have ht := Machine.tallied_intake limits a false
  have hr := Machine.atRest_intake limits a false
  have he := Machine.eof_intake limits a false
  unfold items
  rw [Machine.tally_append limits a b false]
  rcases ht.of_atRest hr he with ⟨hc, hk⟩ | ⟨hc, -⟩
  · have hp := (Machine.tally limits a false).requests_prefix_noteAll
      ((Machine.intake limits a false).2.arrive b false).drain.1
    unfold Tally.items
    rw [hk.refused, Option.toList_none, List.map_nil, List.append_nil]
    exact (hp.map _).trans (List.prefix_append _ _)
  · have hc' := (Machine.arrive_frame _ b false).1.trans hc
    rw [Machine.drain_of_closing (ht.valid.arrive b false) hc']
    exact List.prefix_refl _

end WireHttp
