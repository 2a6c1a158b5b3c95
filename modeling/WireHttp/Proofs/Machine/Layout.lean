/-
Where requests lie in a stream. The requests that a machine reports are
those that the stream holds one after the other (`holds_tally`): each head
is what is read after the one before, less blank lines, and the body is as
many of the bytes that follow as the head declares. None follows a request
after which none may.

The invariant is `Spent`, of a machine that is being drained: which part
of the stream the requests noted have used up, told by the phase. Between
two requests the buffer is what they have left, and within a request what
it has not yet used up of that.
-/
import WireHttp.Proofs.Machine.Items

namespace WireHttp

/-- The bytes hold these requests, one after the other and after any
blank lines, and then `rest`; and all but the last may be followed by
another. -/
inductive Holds (limits : Limits) : Bytes → List Request → Bytes → Prop
  | nil (bs : Bytes) : Holds limits bs [] bs
  | cons {bs : Bytes} {head : Head} {consumed : Nat} {body next rest : Bytes}
      {requests : List Request} :
      Head.read limits (Machine.skipBlankLines bs) = .ok (head, consumed) →
      (Machine.skipBlankLines bs).drop consumed = body ++ next →
      body.length = head.contentLength → (requests = [] ∨ head.keepAlive = true) →
      Holds limits next requests rest → Holds limits bs (head.request body :: requests) rest

/-- One more request after others each of which may be followed. -/
theorem Holds.concat {limits : Limits} {bs next rest body : Bytes} {requests : List Request}
    {head : Head} {consumed : Nat} (h : Holds limits bs requests next)
    (hk : ∀ r ∈ requests, r.keepAlive = true)
    (hr : Head.read limits (Machine.skipBlankLines next) = .ok (head, consumed))
    (hb : (Machine.skipBlankLines next).drop consumed = body ++ rest)
    (hl : body.length = head.contentLength) :
    Holds limits bs (requests ++ [head.request body]) rest := by
  induction h with
  | nil bs => exact .cons hr hb hl (Or.inl rfl) (.nil rest)
  | @cons bs head' consumed' body' next' rest' requests hr' hb' hl' hk' h ih =>
      refine .cons hr' hb' hl' (Or.inr ?_) (ih (fun r hm => hk r (List.mem_cons_of_mem _ hm)) hr hb)
      exact hk (head'.request body') List.mem_cons_self

namespace Machine

/-- Which part of the stream `data` the requests noted have used up. -/
inductive Spent (limits : Limits) (data : Bytes) (m : Machine) (t : Tally) : Prop
  | clear (rest : Bytes) :
      (m.phase = .idle ∧ skipBlankLines rest = skipBlankLines m.buffer ∨
        ∃ k, m.phase = .readingHead k ∧ skipBlankLines rest = m.buffer) →
      Holds limits data t.requests rest → Spent limits data m t
  | within (rest body : Bytes) (head : Head) (consumed r : Nat) (x : Exchange) :
      (m.phase = .complete x ∧ r = 0 ∨ m.phase = .readingBody x r) →
      Holds limits data t.requests rest →
      Head.read limits (skipBlankLines rest) = .ok (head, consumed) →
      (skipBlankLines rest).drop consumed = body ++ m.buffer →
      body.length + r = head.contentLength → t.arriving = some (head.request body) →
      Spent limits data m t
  | ended : m.phase = .ended → Holds limits data t.requests m.buffer → Spent limits data m t
  | closing (rest : Bytes) : m.phase = .closing → Holds limits data t.requests rest →
      Spent limits data m t

variable {limits : Limits} {data : Bytes} {m n : Machine} {t : Tally}

theorem Spent.holds (h : Spent limits data m t) : ∃ rest, Holds limits data t.requests rest := by
  cases h with
  | clear rest hp hh => exact ⟨rest, hh⟩
  | within rest body head consumed r x hp hh => exact ⟨rest, hh⟩
  | ended hp hh => exact ⟨m.buffer, hh⟩
  | closing rest hp hh => exact ⟨rest, hh⟩

/-- Between two requests the buffer is what is left of the stream. -/
theorem Spent.of_between (h : Spent limits data m t) (hb : m.Between) :
    ∃ rest, Holds limits data t.requests rest ∧ skipBlankLines rest = skipBlankLines m.buffer := by
  cases h with
  | clear rest hp hh =>
      rcases hp with ⟨-, hs⟩ | ⟨k, hp, -⟩
      · exact ⟨rest, hh, hs⟩
      · simp [Between, hp] at hb
  | within rest body head consumed r x hp hh =>
      rcases hp with ⟨hp, -⟩ | hp
      · simp [Between, hp] at hb
      · simp [Between, hp] at hb
  | ended hp hh => exact ⟨m.buffer, hh, rfl⟩
  | closing rest hp hh => exact absurd hp hb.ne_closing

/-- Where a head is due its bytes are what is left of the stream. -/
theorem Spent.of_facing (h : Spent limits data m t) (hf : Facing m n) :
    ∃ rest, Holds limits data t.requests rest ∧ skipBlankLines rest = n.buffer := by
  cases hf with
  | begun hb hne => exact h.of_between hb
  | resumed k hp =>
      cases h with
      | clear rest hp' hh =>
          rcases hp' with ⟨hp', -⟩ | ⟨k', hp', hs⟩
          · cases hp.symm.trans hp'
          · exact ⟨rest, hh, hs⟩
      | within rest body head consumed r x hp' hh =>
          rcases hp' with ⟨hp', -⟩ | hp'
          · cases hp.symm.trans hp'
          · cases hp.symm.trans hp'
      | ended hp' => cases hp.symm.trans hp'
      | closing rest hp' => cases hp.symm.trans hp'

/-- Within a request its head has been used up, and what the buffer holds
comes after what has arrived of its body. -/
theorem Spent.of_within (h : Spent limits data m t) {x : Exchange} {r : Nat}
    (hp : m.phase = .complete x ∧ r = 0 ∨ m.phase = .readingBody x r) :
    ∃ rest body head consumed, Holds limits data t.requests rest ∧
      Head.read limits (skipBlankLines rest) = .ok (head, consumed) ∧
      (skipBlankLines rest).drop consumed = body ++ m.buffer ∧
      body.length + r = head.contentLength ∧ t.arriving = some (head.request body) := by
  cases h with
  | clear rest hp' hh =>
      rcases hp' with ⟨hp', -⟩ | ⟨k, hp', -⟩
      · simp [hp'] at hp
      · simp [hp'] at hp
  | within rest body head consumed r' x' hp' hh hr hb hl ha =>
      have heq : r' = r := by
        rcases hp with ⟨hp, rfl⟩ | hp
        · rcases hp' with ⟨-, hr'⟩ | hp'
          · exact hr'
          · cases hp.symm.trans hp'
        · rcases hp' with ⟨hp', -⟩ | hp'
          · cases hp.symm.trans hp'
          · cases hp.symm.trans hp'
            rfl
      exact ⟨rest, body, head, consumed, hh, hr, hb, heq ▸ hl, ha⟩
  | ended hp' => simp [hp'] at hp
  | closing rest hp' => simp [hp'] at hp

/-- A poll uses up what it reports. -/
theorem Spent.poll {e : Option Event} (h : Spent limits data m t) (ht : Tallied m t)
    (hl : m.limits = limits) (hp : Polls m e n) : Spent limits data n (t.noteAll e.toList) := by
  cases hp with
  | closed hp => exact h
  | last hp hc =>
      obtain ⟨rest, hh⟩ := h.holds
      exact .closing rest rfl hh
  | waits hs he =>
      cases hs with
      | between hb =>
          obtain ⟨rest, hh, hs⟩ := h.of_between hb
          exact .clear rest (Or.inl ⟨rfl, hs.trans (skipBlankLines_skipBlankLines _).symm⟩) hh
      | head hf hr =>
          obtain ⟨rest, hh, hs⟩ := h.of_facing hf
          exact .clear rest (Or.inr ⟨_, rfl, hs⟩) hh
      | body => exact h
  | peerClosed hs he =>
      obtain ⟨rest, hh⟩ := h.holds
      exact .closing rest rfl hh
  | @head n head consumed hf hr =>
      obtain ⟨rest, hh, hs⟩ := h.of_facing hf
      rw [show n.limits = limits from by rw [← hl]; cases hf <;> rfl, ← hs] at hr
      refine .within rest [] head consumed head.contentLength (.ofHead head)
        (phase_acceptHead n head consumed) hh hr ?_ (Nat.zero_add _) rfl
      rw [hs]
      rfl
  | @rejected n e hf hr hne =>
      obtain ⟨rest, hh⟩ := h.holds
      exact .closing rest rfl hh
  | chunk x r hp hb =>
      obtain ⟨rest, body, head, consumed, hh, hr, hbytes, hlen, ha⟩ := h.of_within (Or.inr hp)
      have htake : (m.buffer.take r).length ≤ r := List.length_take_le r m.buffer
      refine .within rest (body ++ m.buffer.take r) head consumed
        (r - (m.buffer.take r).length) x (phase_acceptChunk m x r) hh hr ?_ ?_ ?_
      · rw [hbytes, List.append_assoc]
        show _ = body ++ (m.buffer.take r ++ m.buffer.drop r)
        rw [List.take_append_drop]
      · rw [List.length_append]
        omega
      · show t.arriving.map _ = _
        rw [ha]
        rfl
  | messageEnd x hp =>
      obtain ⟨q, -, hk, -, -⟩ := ht.place.of_within (Or.inl hp)
      obtain ⟨rest, body, head, consumed, hh, hr, hbytes, hlen, ha⟩ :=
        h.of_within (Or.inl ⟨hp, rfl⟩)
      refine .ended rfl ?_
      show Holds limits data (t.note .messageEnd).requests m.buffer
      unfold Tally.note
      rw [ha]
      exact hh.concat hk.requests hr hbytes hlen

theorem Spent.drain (h : Spent limits data m t) (ht : Tallied m t) (hl : m.limits = limits) :
    Spent limits data m.drain.2 (t.noteAll m.drain.1) := by
  refine drain_induction (P := fun m es last => ∀ t, Spent limits data m t → Tallied m t →
    m.limits = limits → Spent limits data last (t.noteAll es)) ?_ ?_ m t h ht hl
  · intro m n hp t h ht hl
    exact h.poll ht hl ((polls_iff ht.valid).2 hp)
  · intro m n e hp ih t h ht hl
    have hpolls := (polls_iff ht.valid).2 hp
    have hframe := (poll_frame ht.valid).limits
    rw [hp] at hframe
    exact ih (t.note e) (h.poll ht hl hpolls) (ht.poll hpolls) (hframe.trans hl)

end Machine

/-- The requests of a stream are those that it holds, and the bytes after
them are not used up. -/
theorem holds_tally (limits : Limits) (data : Bytes) (told : Bool) :
    ∃ rest, Holds limits data (Machine.tally limits data told).requests rest := by
  have harrive := Machine.arrive_of_open (m := Machine.start limits) nofun data told
  have hspent : Machine.Spent limits data ((Machine.start limits).arrive data told) {} := by
    rw [harrive]
    exact .clear data (Or.inl ⟨rfl, rfl⟩) (.nil data)
  have hlimits : ((Machine.start limits).arrive data told).limits = limits := by
    rw [harrive]
    rfl
  exact (hspent.drain ((Machine.Tallied.start limits).arrive data told) hlimits).holds

end WireHttp
