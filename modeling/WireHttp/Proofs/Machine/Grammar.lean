/-
The order of events. However a machine is called, the events it brings
are those of whole requests, one after the other, and then at most a part
of one more, or a last word after which there is none: that the peer has
closed its writing side, or that the next request was refused.

The invariant is `Open`: which events stand after the last whole request,
told by the phase. While a body is read, what its pieces come to and what
is still missing are the declared length (`Open.body`); so a body is cut
short only while bytes of it are missing, and its end is reported when
none are. A machine that reads no more may have been stopped by its
writing half within a request, and keeps whatever stood there.
-/
import WireHttp.Proofs.Machine.Call

namespace WireHttp

-- ========================================================= the grammar

/-- A request as it is reported: its head, and the pieces of its body,
none of them empty and as many bytes of them as were declared. -/
structure Message where
  head : Head
  pieces : List Bytes
  nonempty : ∀ p ∈ pieces, p ≠ []
  exact : pieces.flatten.length = head.contentLength

/-- The events of a request that is being read. -/
def Event.opening (head : Head) (pieces : List Bytes) : List Event :=
  .head head :: pieces.map .chunk

/-- The events of a whole request. -/
def Message.events (m : Message) : List Event :=
  Event.opening m.head m.pieces ++ [.messageEnd]

/-- Whether an event is the last word of a connection. -/
def Event.isLast : Event → Bool
  | peerClosed | rejected _ => true
  | head _ | chunk _ | messageEnd => false

/-- What may stand after the last whole request. The peer is known to
have closed its writing side only if that was `told`. -/
inductive Unfinished (told : Prop) : List Event → Prop
  | nothing : Unfinished told []
  | rejected (e : HeadError) : Unfinished told [.rejected e]
  | peerClosed : told → Unfinished told [.peerClosed]
  | within (head : Head) (pieces : List Bytes) : (∀ p ∈ pieces, p ≠ []) →
      pieces.flatten.length ≤ head.contentLength → Unfinished told (Event.opening head pieces)
  | cutShort (head : Head) (pieces : List Bytes) : (∀ p ∈ pieces, p ≠ []) →
      pieces.flatten.length < head.contentLength → told →
      Unfinished told (Event.opening head pieces ++ [.peerClosed])

/-- Whole requests, and what may stand after them. -/
def WellFormed (told : Prop) (es : List Event) : Prop :=
  ∃ (whole : List Message) (rest : List Event),
    es = whole.flatMap Message.events ++ rest ∧ Unfinished told rest

theorem Unfinished.mono {told told' : Prop} {rest : List Event} (h : Unfinished told rest)
    (ht : told → told') : Unfinished told' rest := by
  cases h with
  | nothing => exact .nothing
  | rejected e => exact .rejected e
  | peerClosed h => exact .peerClosed (ht h)
  | within head pieces hne hle => exact .within head pieces hne hle
  | cutShort head pieces hne hlt h => exact .cutShort head pieces hne hlt (ht h)

theorem not_isLast_of_mem_opening {head : Head} {pieces : List Bytes} {e : Event}
    (h : e ∈ Event.opening head pieces) : e.isLast = false := by
  rcases List.mem_cons.1 h with rfl | h
  · rfl
  · obtain ⟨p, -, rfl⟩ := List.mem_map.1 h
    rfl

theorem Message.not_isLast_of_mem {m : Message} {e : Event} (h : e ∈ m.events) :
    e.isLast = false := by
  rcases List.mem_append.1 h with h | h
  · exact not_isLast_of_mem_opening h
  · rw [List.mem_singleton.1 h]
    rfl

namespace Machine

-- ======================================================= the invariant

/-- No head has been reported whose end has not. -/
def Clear (m : Machine) : Prop :=
  m.phase = .idle ∨ (∃ k, m.phase = .readingHead k) ∨ m.phase = .ended

/-- Which events stand after the last whole request. -/
inductive Open (m : Machine) : List Event → Prop
  | clear : m.Clear → Open m []
  | body (head : Head) (pieces : List Bytes) (x : Exchange) (r : Nat) :
      m.phase = .readingBody x r → (∀ p ∈ pieces, p ≠ []) →
      pieces.flatten.length + r = head.contentLength → Open m (Event.opening head pieces)
  | complete (head : Head) (pieces : List Bytes) (x : Exchange) :
      m.phase = .complete x → (∀ p ∈ pieces, p ≠ []) →
      pieces.flatten.length = head.contentLength → Open m (Event.opening head pieces)
  | closing {rest : List Event} : m.phase = .closing → Unfinished (m.eof = true) rest → Open m rest

theorem Open.unfinished {m : Machine} {rest : List Event} (h : Open m rest) :
    Unfinished (m.eof = true) rest := by
  cases h with
  | clear => exact .nothing
  | body head pieces x r hp hne hsum => exact .within head pieces hne (by omega)
  | complete head pieces x hp hne hsum => exact .within head pieces hne (by omega)
  | closing hp hu => exact hu

/-- Only the phase and the end mark matter, and any machine may stop
reading. -/
theorem Open.congr {m n : Machine} {rest : List Event} (h : Open m rest)
    (hp : n.phase = m.phase ∨ n.phase = .closing) (he : m.eof = true → n.eof = true) :
    Open n rest := by
  rcases hp with hp | hp
  · cases h with
    | clear h => exact .clear (by unfold Clear; rwa [hp])
    | body head pieces x r h hne hsum => exact .body head pieces x r (hp.trans h) hne hsum
    | complete head pieces x h hne hsum => exact .complete head pieces x (hp.trans h) hne hsum
    | closing h hu => exact .closing (hp.trans h) (hu.mono he)
  · exact .closing hp (h.unfinished.mono he)

/-- Once the last word has been said nothing more is read. -/
theorem Open.closing_of_isLast {m : Machine} {rest : List Event} (h : Open m rest)
    {e : Event} (he : e ∈ rest) (hl : e.isLast = true) : m.phase = .closing := by
  cases h with
  | clear => cases he
  | body head pieces x r hp hne hsum =>
      rw [not_isLast_of_mem_opening he] at hl
      cases hl
  | complete head pieces x hp hne hsum =>
      rw [not_isLast_of_mem_opening he] at hl
      cases hl
  | closing hp hu => exact hp

theorem Open.eq_nil {m : Machine} {rest : List Event} (h : Open m rest) (hc : m.Clear) :
    rest = [] := by
  cases h with
  | clear => rfl
  | body head pieces x r hp => simp [Clear, hp] at hc
  | complete head pieces x hp => simp [Clear, hp] at hc
  | closing hp => simp [Clear, hp] at hc

theorem Open.of_body {m : Machine} {rest : List Event} (h : Open m rest) {x : Exchange} {r : Nat}
    (hp : m.phase = .readingBody x r) :
    ∃ head pieces, rest = Event.opening head pieces ∧ (∀ p ∈ pieces, p ≠ []) ∧
      pieces.flatten.length + r = head.contentLength := by
  cases h with
  | clear hc => simp [Clear, hp] at hc
  | body head pieces y s hp' hne hsum =>
      cases hp.symm.trans hp'
      exact ⟨head, pieces, rfl, hne, hsum⟩
  | complete head pieces y hp' => cases hp.symm.trans hp'
  | closing hp' => cases hp.symm.trans hp'

theorem Open.of_complete {m : Machine} {rest : List Event} (h : Open m rest) {x : Exchange}
    (hp : m.phase = .complete x) :
    ∃ head pieces, rest = Event.opening head pieces ∧ (∀ p ∈ pieces, p ≠ []) ∧
      pieces.flatten.length = head.contentLength := by
  cases h with
  | clear hc => simp [Clear, hp] at hc
  | body head pieces y s hp' => cases hp.symm.trans hp'
  | complete head pieces y hp' hne hsum => exact ⟨head, pieces, rfl, hne, hsum⟩
  | closing hp' => cases hp.symm.trans hp'

theorem Between.clear {m : Machine} (h : m.Between) : m.Clear :=
  h.imp id fun h => Or.inr h.1

/-- A head is due only between two requests. -/
theorem Facing.clear {m n : Machine} (h : Facing m n) : m.Clear := by
  cases h with
  | begun h hb => exact h.clear
  | resumed k hp => exact Or.inr (Or.inl ⟨k, hp⟩)

/-- Waiting for more bytes leaves the events where they stand, and the
peer may close its writing side there. -/
theorem Open.starved {m n : Machine} {rest : List Event} (hv : m.Valid) (h : Open m rest)
    (hs : Starved m n) :
    Open n rest ∧ (m.eof = true → Unfinished (m.eof = true) (rest ++ [.peerClosed])) := by
  cases hs with
  | between hb =>
      rw [h.eq_nil hb.clear]
      exact ⟨.clear (Or.inl rfl), .peerClosed⟩
  | head hf hr =>
      rw [h.eq_nil hf.clear]
      exact ⟨.clear (Or.inr (Or.inl ⟨_, rfl⟩)), .peerClosed⟩
  | body x r hp hb =>
      refine ⟨h, ?_⟩
      obtain ⟨head, pieces, rfl, hne, hsum⟩ := h.of_body hp
      have hpos := hv.remaining x r hp
      exact .cutShort head pieces hne (by omega)

/-- A head that has been read opens a request. -/
theorem open_acceptHead (m : Machine) (head : Head) (consumed : Nat) :
    Open (m.acceptHead head consumed) [.head head] := by
  rcases phase_acceptHead m head consumed with ⟨hp, hl⟩ | hp
  · exact .complete head [] (.ofHead head) hp nofun hl.symm
  · exact .body head [] (.ofHead head) head.contentLength hp nofun (Nat.zero_add _)

/-- What a poll does to the events after the last whole request: it adds
to them, or makes them whole. -/
theorem Open.poll {m n : Machine} {rest : List Event} {e : Option Event} (hv : m.Valid)
    (h : Open m rest) (hp : Polls m e n) :
    ∃ (whole : List Message) (rest' : List Event),
      rest ++ e.toList = whole.flatMap Message.events ++ rest' ∧ Open n rest' := by
  cases hp with
  | closed hp => exact ⟨[], rest, List.append_nil _, h⟩
  | last hp hc => exact ⟨[], rest, List.append_nil _, h.congr (Or.inr rfl) id⟩
  | waits hs he => exact ⟨[], rest, List.append_nil _, (h.starved hv hs).1⟩
  | peerClosed hs he =>
      exact ⟨[], rest ++ [Event.peerClosed], rfl, .closing rfl ((h.starved hv hs).2 he)⟩
  | @head n head consumed hf hr =>
      rw [h.eq_nil hf.clear]
      exact ⟨[], [.head head], rfl, open_acceptHead n head consumed⟩
  | @rejected n e hf hr hne =>
      rw [h.eq_nil hf.clear]
      exact ⟨[], [.rejected e], rfl, .closing rfl (.rejected e)⟩
  | chunk x r hp hb =>
      obtain ⟨head, pieces, rfl, hne, hsum⟩ := h.of_body hp
      have hpos := hv.remaining x r hp
      have hdata : ∀ p ∈ pieces ++ [m.buffer.take r], p ≠ [] := by
        intro p hmem
        rcases List.mem_append.1 hmem with hmem | hmem
        · exact hne p hmem
        · rw [List.mem_singleton.1 hmem, Ne, List.take_eq_nil_iff]
          rintro (rfl | hnil)
          · exact absurd hpos (Nat.lt_irrefl 0)
          · exact hb hnil
      have hlen : (pieces ++ [m.buffer.take r]).flatten.length
          = pieces.flatten.length + (m.buffer.take r).length := by
        rw [List.flatten_append, List.length_append, List.flatten_singleton]
      have hle : (m.buffer.take r).length ≤ r := List.length_take_le r m.buffer
      refine ⟨[], Event.opening head (pieces ++ [m.buffer.take r]), ?_, ?_⟩
      · simp [Event.opening]
      · rcases phase_acceptChunk m x r with ⟨hphase, hl⟩ | hphase
        · exact .complete head _ x hphase hdata (by omega)
        · exact .body head _ x _ hphase hdata (by omega)
  | messageEnd x hp =>
      obtain ⟨head, pieces, rfl, hne, hsum⟩ := h.of_complete hp
      refine ⟨[⟨head, pieces, hne, hsum⟩], [], ?_, .clear (Or.inr (Or.inr rfl))⟩
      show Event.opening head pieces ++ [.messageEnd]
        = [Message.mk head pieces hne hsum].flatMap _ ++ []
      rw [List.flatMap_singleton, List.append_nil]
      rfl

-- ============================================================ every run

/-- A machine that reads no more brings no event, whatever is called. -/
theorem call_of_closing {m : Machine} (hv : m.Valid) (hc : m.phase = .closing) (c : Call) :
    (m.call c).1.event? = none ∧ (m.call c).2.phase = .closing := by
  have hm := moves hv c
  generalize (m.call c).1.event? = e at hm
  generalize (m.call c).2 = n at hm
  cases hm with
  | receive data =>
      unfold Machine.receive
      rw [if_pos hc]
      exact ⟨rfl, hc⟩
  | receiveEof => exact ⟨rfl, hc⟩
  | poll hp =>
      have h := ((polls_iff hv).1 (.closed hc)).symm.trans ((polls_iff hv).1 hp)
      obtain ⟨rfl, rfl⟩ := Prod.mk.inj h
      exact ⟨rfl, hc⟩
  | aside hne ha =>
      rcases ha.reading with ⟨hp, -⟩ | ⟨hp, -⟩
      · exact ⟨rfl, hp.trans hc⟩
      · exact ⟨rfl, hp⟩

theorem events_of_closing {m : Machine} (hv : m.Valid) (hc : m.phase = .closing)
    (cs : List Call) : m.events cs = [] := by
  induction cs generalizing m with
  | nil => rfl
  | cons c cs ih =>
      obtain ⟨he, hc'⟩ := call_of_closing hv hc c
      rw [← List.singleton_append, events_append, events_singleton, he]
      exact ih (hv.call c) hc'

/-- Every call keeps the order of events. -/
theorem Open.call {m : Machine} {rest : List Event} (hv : m.Valid) (h : Open m rest) (c : Call) :
    ∃ (whole : List Message) (rest' : List Event),
      rest ++ (m.call c).1.event?.toList = whole.flatMap Message.events ++ rest' ∧
        Open (m.call c).2 rest' := by
  have hm := moves hv c
  generalize (m.call c).1.event? = e at hm
  generalize (m.call c).2 = n at hm
  cases hm with
  | receive data =>
      have hr : (m.receive data).phase = m.phase ∧ (m.receive data).eof = m.eof := by
        unfold Machine.receive
        split
        · exact ⟨rfl, rfl⟩
        · exact ⟨rfl, rfl⟩
      exact ⟨[], rest, List.append_nil _, h.congr (Or.inl hr.1) (fun he => hr.2.trans he)⟩
  | receiveEof => exact ⟨[], rest, List.append_nil _, h.congr (Or.inl rfl) (fun _ => rfl)⟩
  | poll hp => exact h.poll hv hp
  | aside hne ha =>
      refine ⟨[], rest, List.append_nil _, h.congr ?_ (fun he => ha.eof.trans he)⟩
      exact ha.reading.imp And.left And.left

/-- The invariant holds after every run. -/
theorem open_calls (limits : Limits) (cs : List Call) :
    ((start limits).calls cs).2.Valid ∧
      ∃ (whole : List Message) (rest : List Event),
        (start limits).events cs = whole.flatMap Message.events ++ rest ∧
          Open ((start limits).calls cs).2 rest := by
  refine calls_induction (m := start limits)
    (P := fun _ es n => n.Valid ∧ ∃ (whole : List Message) (rest : List Event),
      es = whole.flatMap Message.events ++ rest ∧ Open n rest)
    ⟨.start limits, [], [], rfl, .clear (Or.inl rfl)⟩ ?_ cs
  rintro cs es n c ⟨hv, whole, rest, rfl, ho⟩
  obtain ⟨more, rest', heq, ho'⟩ := ho.call hv c
  refine ⟨hv.call c, whole ++ more, rest', ?_, ho'⟩
  rw [List.append_assoc, heq, List.flatMap_append, List.append_assoc]

/-- However a machine is called, its events are those of whole requests
and then, at most, a part of one more or a last word; that the peer has
closed its writing side is said only if the machine was told so. After a
last word no call brings another event. -/
theorem events_wellFormed (limits : Limits) (cs : List Call) :
    WellFormed (Call.receiveEof ∈ cs) ((start limits).events cs) ∧
      ∀ e ∈ (start limits).events cs, e.isLast = true →
        ∀ more, (start limits).events (cs ++ more) = (start limits).events cs := by
  obtain ⟨hv, whole, rest, heq, ho⟩ := open_calls limits cs
  refine ⟨⟨whole, rest, heq, ho.unfinished.mono (eof_calls limits cs).1⟩, ?_⟩
  intro e he hl more
  rw [heq] at he
  rcases List.mem_append.1 he with he | he
  · obtain ⟨m, -, he⟩ := List.mem_flatMap.1 he
    rw [Message.not_isLast_of_mem he] at hl
    cases hl
  · rw [events_append, events_of_closing hv (ho.closing_of_isLast he hl), List.append_nil]

end Machine

end WireHttp
