/-
What holds of a machine at all times. `Consistent` says how its parts hang
together, and every call keeps it, with any arguments and also where the
call is refused (`Consistent.call`). So it holds after every run, and what
it is to be over stays over (`Consistent.calls`). Of a machine that has a
register for each of its parts the same is shown from this
(`Registers.consistent_calls`).

Two of its fields are there for the sake of the others. The bytes of a
head are not a lone carriage return either, for with the line feed after
it they would be a blank line. And a request that none may follow has made
the machine close by the time that its end is reported, which is why
nothing is owed after it (`Shut.call`).

Whether the exchange of a request is kept is no part of it: a phase has one
or has none. That it is the exchange of the right request is a fact about
the history (`exchange?_calls`).
-/
import WireHttp.Proofs.Machine.Grammar
import WireHttp.Proofs.Machine.LastHead
import WireHttp.Proofs.Machine.Pairing

namespace WireHttp.Machine

-- ========================================================= the invariant

/-- The bytes are the front of a request, with no blank line before it. -/
structure Begun (bs : Bytes) : Prop where
  ne_nil : bs ≠ []
  ne_cr : bs ≠ [13]
  not_lineEnd : ¬ [13, 10] <+: bs

/-- How the parts of a machine hang together. -/
structure Consistent (m : Machine) : Prop where
  /-- Some of a body that is being read is to come, and no more of it than
  a body may have. -/
  remaining : ∀ x r, m.phase = .readingBody x r → 1 ≤ r ∧ r ≤ m.limits.maxBody.toNat
  /-- A head that is arriving has begun. -/
  begun : ∀ k, m.phase = .readingHead k → Begun m.buffer
  /-- Where it has been searched it has no end. -/
  searched : ∀ k, m.phase = .readingHead k →
    k ≤ m.buffer.length ∧ ¬ Delimiter.mark <:+: m.buffer.take k
  closing : m.phase = .closing → m.buffer = [] ∧ m.mustClose = true
  /-- Of the response under way no more has been given than was declared,
  and if the connection ends with it that is known. -/
  sending : ∀ declared written suppress close,
    m.outbound = .sending declared written suppress close →
      written ≤ declared ∧ (close = true → m.mustClose = true)
  closed : m.outbound = .closed → m.phase = .closing
  /-- A request that none may follow makes the machine close, from its
  head on. -/
  current : ∀ x, m.phase.exchange? = some x → x.keepAlive = false → m.mustClose = true
  /-- Nothing more is read after such a request once it is owed an answer. -/
  shut : ∀ x ∈ m.owed, x.keepAlive = false →
    m.mustClose = true ∧ (m.phase = .ended ∨ m.phase = .closing)
  /-- Only the last of what is owed may be one that none may follow. -/
  owed : ∀ x ∈ m.owed.dropLast, x.keepAlive = true

variable {m n : Machine}

theorem Consistent.start (limits : Limits) : (start limits).Consistent where
  remaining := nofun
  begun := nofun
  searched := nofun
  closing := nofun
  sending := nofun
  closed := nofun
  current := nofun
  shut := nofun
  owed := nofun

theorem Consistent.valid (h : m.Consistent) : m.Valid := by
  refine ⟨?_, fun x r hp => (h.remaining x r hp).1, fun hp => (h.closing hp).1⟩
  intro k hp
  obtain ⟨hle, hnone⟩ := h.searched k hp
  exact ⟨hle, Delimiter.find?_eq_none_iff_not_infix.2 hnone⟩

/-- Where nothing has been read that none may follow, nothing is owed that
none may follow. -/
theorem Consistent.keepAlive_of_mem (h : m.Consistent)
    (hp : m.phase ≠ .ended ∨ m.mustClose = false) (hc : m.phase ≠ .closing) :
    ∀ x ∈ m.owed, x.keepAlive = true := by
  intro x hx
  rw [← Bool.not_eq_false]
  intro hk
  obtain ⟨hclose, hphase⟩ := h.shut x hx hk
  rcases hphase with he | he
  · rcases hp with hp | hp
    · exact hp he
    · cases hp.symm.trans hclose
  · exact hc he

theorem Consistent.not_closed (h : m.Consistent) (hc : m.phase ≠ .closing) :
    m.outbound ≠ .closed :=
  fun ho => hc (h.closed ho)

-- ================================================= the receiving half

/-- More bytes do not make a blank line of a request that has begun. -/
theorem Begun.append {bs : Bytes} (h : Begun bs) (data : Bytes) : Begun (bs ++ data) := by
  have hskip := skipBlankLines_eq_self h.not_lineEnd
  have hbegun : ¬ (skipBlankLines bs = [] ∨ skipBlankLines bs = [13]) := by
    rw [hskip]
    exact fun hb => hb.elim h.ne_nil h.ne_cr
  have hstill := skipBlankLines_append_of_begun data hbegun
  rw [hskip] at hstill
  refine ⟨fun hb => h.ne_nil (List.append_eq_nil_iff.1 hb).1, ?_, ?_⟩
  · intro hb
    rcases List.append_eq_singleton_iff.1 hb with ⟨hb, -⟩ | ⟨hb, -⟩
    · exact h.ne_nil hb
    · exact h.ne_cr hb
  · rw [← hstill]
    exact not_lineEnd_prefix_skipBlankLines _

/-- Where a head is due it has begun. -/
theorem Consistent.begun_of_facing (h : m.Consistent) (hf : Facing m n) : Begun n.buffer := by
  cases hf with
  | begun hb hne =>
      exact ⟨fun he => hne (Or.inl he), fun he => hne (Or.inr he),
        not_lineEnd_prefix_skipBlankLines _⟩
  | resumed k hp => exact h.begun k hp

/-- Where a head is due, whatever is owed may be followed by a request. -/
theorem Consistent.open_of_due (h : m.Consistent) (hd : m.Due) :
    m.outbound ≠ .closed ∧ ∀ x ∈ m.owed, x.keepAlive = true := by
  have hopen : m.phase ≠ .closing ∧ (m.phase ≠ .ended ∨ m.mustClose = false) := by
    rcases hd with hp | ⟨k, hp⟩ | ⟨hp, hc⟩
    · rw [hp]
      exact ⟨nofun, Or.inl nofun⟩
    · rw [hp]
      exact ⟨nofun, Or.inl nofun⟩
    · rw [hp]
      exact ⟨nofun, Or.inr hc⟩
  exact ⟨h.not_closed hopen.1, h.keepAlive_of_mem hopen.2 hopen.1⟩

/-- A machine for which a head is due may wait for it. -/
theorem Consistent.wait (h : m.Consistent) (hd : m.Due) {phase : Phase} {buffer : Bytes}
    (hp : phase = .idle ∨ phase = .readingHead buffer.length ∧ Begun buffer ∧
      Delimiter.find? buffer 0 = none) : { m with phase, buffer }.Consistent := by
  obtain ⟨hout, hkeep⟩ := h.open_of_due hd
  have hshut {q : Prop} : ∀ x ∈ m.owed, x.keepAlive = false → q := by
    intro x hx hk
    cases (hkeep x hx).symm.trans hk
  rcases hp with rfl | ⟨rfl, hbegun, hnone⟩
  · exact {
      remaining := nofun
      begun := nofun
      searched := nofun
      closing := nofun
      sending := h.sending
      closed := fun ho => absurd ho hout
      current := nofun
      shut := hshut
      owed := h.owed }
  · refine {
      remaining := nofun
      begun := fun _ _ => hbegun
      searched := ?_
      closing := nofun
      sending := h.sending
      closed := fun ho => absurd ho hout
      current := nofun
      shut := hshut
      owed := h.owed }
    intro k hk
    cases hk
    rw [List.take_length]
    exact ⟨Nat.le_refl _, Delimiter.find?_eq_none_iff_not_infix.1 hnone⟩

/-- The machine that looks at a head. -/
theorem Consistent.facing (h : m.Consistent) (hf : Facing m n) : n.Consistent ∧ n.Due := by
  cases hf with
  | begun hb hne => exact ⟨h.wait hb.due (Or.inl rfl), Or.inl rfl⟩
  | resumed k hp => exact ⟨h, Or.inr (Or.inl ⟨k, hp⟩)⟩

theorem Consistent.acceptHead (h : m.Consistent) (hd : m.Due) {head : Head} {consumed : Nat}
    (hr : Head.read m.limits m.buffer = .ok (head, consumed)) :
    (m.acceptHead head consumed).Consistent := by
  obtain ⟨hout, hkeep⟩ := h.open_of_due hd
  have hphase := phase_acceptHead m head consumed
  have hv := valid_acceptHead m head consumed
  refine {
    remaining := ?_
    begun := ?_
    searched := ?_
    closing := ?_
    sending := ?_
    closed := fun ho => absurd ho hout
    current := ?_
    shut := ?_
    owed := h.owed }
  · intro x r hp
    refine ⟨hv.remaining x r hp, ?_⟩
    rcases hphase with ⟨hp', -⟩ | hp'
    · cases hp'.symm.trans hp
    · cases hp'.symm.trans hp
      exact Head.contentLength_le_of_read hr
  · intro k hp
    exact absurd (Or.inr ⟨k, hp⟩) (not_awaitsHead_acceptHead m head consumed)
  · intro k hp
    exact absurd (Or.inr ⟨k, hp⟩) (not_awaitsHead_acceptHead m head consumed)
  · intro hp
    rcases hphase with ⟨hp', -⟩ | hp'
    · cases hp'.symm.trans hp
    · cases hp'.symm.trans hp
  · intro declared written suppress close ho
    obtain ⟨hle, hclose⟩ := h.sending declared written suppress close ho
    refine ⟨hle, fun hc => ?_⟩
    show (m.mustClose || !head.keepAlive) = true
    rw [hclose hc, Bool.true_or]
  · intro x hx hk
    rw [exchange?_acceptHead] at hx
    cases hx
    show (m.mustClose || !head.keepAlive) = true
    rw [show head.keepAlive = false from hk, Bool.not_false, Bool.or_true]
  · intro x hx hk
    cases (hkeep x hx).symm.trans hk

theorem Consistent.enterClosing (h : m.Consistent) : m.enterClosing.Consistent where
  remaining := nofun
  begun := nofun
  searched := nofun
  closing _ := ⟨rfl, rfl⟩
  sending declared written suppress close ho :=
    ⟨(h.sending declared written suppress close ho).1, fun _ => rfl⟩
  closed _ := rfl
  current := nofun
  shut _ _ _ := ⟨rfl, Or.inr rfl⟩
  owed := h.owed

theorem Consistent.rejectHead (h : m.Consistent) (hd : m.Due) : m.rejectHead.Consistent where
  __ := h.enterClosing
  shut _ _ _ := ⟨rfl, Or.inr rfl⟩
  owed := by
    show ∀ x ∈ (m.owed ++ [Exchange.rejected]).dropLast, x.keepAlive = true
    rw [List.dropLast_concat]
    exact (h.open_of_due hd).2

theorem Consistent.acceptChunk (h : m.Consistent) {x : Exchange} {r : Nat}
    (hp : m.phase = .readingBody x r) : (m.acceptChunk x r).Consistent := by
  have hphase := phase_acceptChunk m x r
  have hv := valid_acceptChunk m x r
  have hout : m.outbound ≠ .closed := h.not_closed (by rw [hp]; nofun)
  have hkeep := h.keepAlive_of_mem (Or.inl (by rw [hp]; nofun)) (by rw [hp]; nofun)
  refine {
    remaining := ?_
    begun := ?_
    searched := ?_
    closing := ?_
    sending := h.sending
    closed := fun ho => absurd ho hout
    current := ?_
    shut := ?_
    owed := h.owed }
  · intro y s hs
    refine ⟨hv.remaining y s hs, ?_⟩
    rcases hphase with ⟨hp', -⟩ | hp'
    · cases hp'.symm.trans hs
    · cases hp'.symm.trans hs
      exact Nat.le_trans (Nat.sub_le _ _) (h.remaining x r hp).2
  · intro k hk
    exact absurd (Or.inr ⟨k, hk⟩) (not_awaitsHead_acceptChunk m x r)
  · intro k hk
    exact absurd (Or.inr ⟨k, hk⟩) (not_awaitsHead_acceptChunk m x r)
  · intro hc
    rcases hphase with ⟨hp', -⟩ | hp'
    · cases hp'.symm.trans hc
    · cases hp'.symm.trans hc
  · intro y hy hk
    rw [exchange?_acceptChunk] at hy
    cases hy
    exact h.current x (by rw [hp]; rfl) hk
  · intro y hy hk
    cases (hkeep y hy).symm.trans hk

/-- What was read is owed an answer, after all else. -/
theorem Consistent.messageEnd (h : m.Consistent) {x : Exchange} (hp : m.phase = .complete x) :
    { m with phase := .ended, owed := m.owed ++ [x] }.Consistent := by
  have hout : m.outbound ≠ .closed := h.not_closed (by rw [hp]; nofun)
  have hkeep := h.keepAlive_of_mem (Or.inl (by rw [hp]; nofun)) (by rw [hp]; nofun)
  refine {
    remaining := nofun
    begun := nofun
    searched := nofun
    closing := nofun
    sending := h.sending
    closed := fun ho => absurd ho hout
    current := nofun
    shut := ?_
    owed := ?_ }
  · intro y hy hk
    rcases List.mem_append.1 hy with hy | hy
    · cases (hkeep y hy).symm.trans hk
    · rw [List.mem_singleton.1 hy] at hk
      exact ⟨h.current x (by rw [hp]; rfl) hk, Or.inl rfl⟩
  · show ∀ y ∈ (m.owed ++ [x]).dropLast, y.keepAlive = true
    rw [List.dropLast_concat]
    exact hkeep

theorem Consistent.poll {e : Option Event} (h : m.Consistent) (hp : Polls m e n) :
    n.Consistent := by
  cases hp with
  | closed => exact h
  | last => exact h.enterClosing
  | waits hs =>
      cases hs with
      | between hb => exact h.wait hb.due (Or.inl rfl)
      | @head n hf hr =>
          obtain ⟨hn, hd⟩ := h.facing hf
          have hnone := (Head.read_eq_incomplete_iff.1 hr).1
          have hwait : { n with
              phase := .readingHead n.buffer.length
              buffer := n.buffer }.Consistent :=
            hn.wait hd (Or.inr ⟨rfl, h.begun_of_facing hf, hnone⟩)
          exact hwait
      | body => exact h
  | peerClosed => exact h.enterClosing
  | head hf hr =>
      obtain ⟨hn, hd⟩ := h.facing hf
      exact hn.acceptHead hd hr
  | rejected hf =>
      obtain ⟨hn, hd⟩ := h.facing hf
      exact hn.rejectHead hd
  | chunk x r hp => exact h.acceptChunk hp
  | messageEnd x hp => exact h.messageEnd hp

theorem Consistent.receive (h : m.Consistent) (data : Bytes) : (m.receive data).Consistent := by
  have hv := h.valid.receive data
  unfold Machine.receive at hv ⊢
  split at hv
  · next hc =>
    rw [if_pos hc]
    exact h
  · next hc =>
    rw [if_neg hc]
    refine { h with begun := ?_, searched := ?_, closing := ?_ }
    · exact fun k hk => (h.begun k hk).append data
    · intro k hk
      obtain ⟨hle, hnone⟩ := hv.scanned k hk
      exact ⟨hle, Delimiter.find?_eq_none_iff_not_infix.1 hnone⟩
    · exact fun hp => absurd hp hc

-- =================================================== the writing half

theorem Consistent.failOutbound (h : m.Consistent) : m.failOutbound.Consistent where
  __ := h.enterClosing
  sending := nofun
  closed _ := rfl

/-- To take up the oldest item that is owed leaves the rest in order. -/
theorem keepAlive_of_mem_dropLast {x : Exchange} {rest : List Exchange}
    (h : ∀ y ∈ (x :: rest).dropLast, y.keepAlive = true) :
    ∀ y ∈ rest.dropLast, y.keepAlive = true := by
  intro y hy
  cases rest with
  | nil => cases hy
  | cons z rest => exact h y (List.mem_cons_of_mem x hy)

theorem Consistent.served (h : m.Consistent) {x : Exchange} {rest : List Exchange}
    (hx : m.owed = x :: rest) : (m.served 1).Consistent := by
  have hrest : (m.served 1).owed = rest := by
    unfold Machine.served
    rw [hx]
    rfl
  refine { h with shut := ?_, owed := ?_ }
  · intro y hy
    rw [hrest] at hy
    exact h.shut y (by rw [hx]; exact List.mem_cons_of_mem x hy)
  · rw [hrest]
    exact keepAlive_of_mem_dropLast (x := x) (hx ▸ h.owed)

theorem Consistent.write {c : Call} {a : Answer} (h : m.Consistent) (hw : Writes m c a n)
    (hc : c.isOutbound = true) : n.Consistent := by
  cases hw with
  | @begun status headers length x rest ho hx hf =>
      have still (hclose : m.mustClose = true) :
          (m.mustClose || m.closesAfter x headers) = true := by
        rw [hclose, Bool.true_or]
      refine { h with
        closing := ?_
        sending := ?_
        closed := nofun
        current := ?_
        shut := ?_
        owed := ?_ }
      · intro hp
        obtain ⟨hbuffer, hclose⟩ := h.closing hp
        exact ⟨hbuffer, still hclose⟩
      · intro declared written suppress close hs
        cases hs
        refine ⟨Nat.zero_le _, fun hclose => ?_⟩
        show (m.mustClose || _) = true
        rw [hclose, Bool.or_true]
      · intro y hy hk
        exact still (h.current y hy hk)
      · intro y hy hk
        obtain ⟨hclose, hphase⟩ := h.shut y (by rw [hx]; exact List.mem_cons_of_mem x hy) hk
        exact ⟨still hclose, hphase⟩
      · exact keepAlive_of_mem_dropLast (x := x) (hx ▸ h.owed)
  | @added data declared written suppress close ho hle =>
      refine { h with sending := ?_, closed := nofun }
      intro d w s cl hs
      cases hs
      exact ⟨hle, (h.sending declared written suppress close ho).2⟩
  | @finished declared suppress close ho =>
      cases close with
      | true => exact h.failOutbound
      | false =>
          exact { h with sending := nofun, closed := nofun }
  | whole r ho hx hf =>
      split
      · exact (h.served hx).failOutbound
      · exact h.served hx
  | refused => exact h
  | failed => exact h.failOutbound
  | elsewhere hn => cases hn.symm.trans hc

/-- Every call keeps a machine consistent. -/
theorem Consistent.call (h : m.Consistent) (c : Call) : (m.call c).2.Consistent := by
  have hw := writes h.valid c
  cases c with
  | receive data => exact h.receive data
  | receiveEof =>
      exact { h with }
  | poll => exact h.poll (polls h.valid)
  | startResponse | sendBody | finishResponse | sendResponse => exact h.write hw rfl

-- ======================================================= what is for good

/-- What a machine can only become, and the limits, which it keeps. -/
structure Persists (m n : Machine) : Prop where
  limits : n.limits = m.limits
  closing : m.phase = .closing → n.phase = .closing
  mustClose : m.mustClose = true → n.mustClose = true
  writeClosed : m.isWriteClosed = true → n.isWriteClosed = true
  wantsRead : m.wantsRead = false → n.wantsRead = false

theorem Persists.refl (m : Machine) : Persists m m :=
  ⟨rfl, id, id, id, id⟩

theorem Persists.trans {o : Machine} (h : Persists m n) (h' : Persists n o) : Persists m o :=
  ⟨h'.limits.trans h.limits, h'.closing ∘ h.closing, h'.mustClose ∘ h.mustClose,
    h'.writeClosed ∘ h.writeClosed, h'.wantsRead ∘ h.wantsRead⟩

theorem wantsRead_eq_false_iff : m.wantsRead = false ↔ m.phase = .closing ∨ m.eof = true := by
  unfold wantsRead
  simp only [Bool.and_eq_false_iff, bne_eq_false_iff_eq, Bool.not_eq_false']

theorem isWriteClosed_iff : m.isWriteClosed = true ↔ m.outbound = .closed := by
  unfold isWriteClosed
  exact beq_iff_eq

/-- No call changes the limits, or takes back that the stream has ended. -/
theorem eof_call (hv : m.Valid) (c : Call) :
    (m.call c).2.limits = m.limits ∧ (m.eof = true → (m.call c).2.eof = true) := by
  have hm := moves hv c
  generalize (m.call c).1.event? = e at hm
  generalize (m.call c).2 = n at hm
  cases hm with
  | receive data =>
      have hframe := m.sameFrame_receive data
      exact ⟨hframe.limits, hframe.eof.trans⟩
  | receiveEof => exact ⟨rfl, fun _ => rfl⟩
  | poll hp =>
      have hframe := poll_frame hv
      rw [hp.poll_eq hv] at hframe
      exact ⟨hframe.limits, hframe.eof.trans⟩
  | aside hne ha => exact ⟨ha.limits, ha.eof.trans⟩

/-- Once nothing more may be written, no call changes that. -/
theorem closed_write {c : Call} {a : Answer} (ho : m.outbound = .closed) (hw : Writes m c a n) :
    n.outbound = .closed := by
  cases hw with
  | begun status headers length hidle => cases hidle.symm.trans ho
  | added data hsending => cases hsending.symm.trans ho
  | finished hsending => cases hsending.symm.trans ho
  | whole r hidle => cases hidle.symm.trans ho
  | refused => exact ho
  | failed => rfl
  | elsewhere hn heq => exact heq.trans ho

theorem persists_call (hv : m.Valid) (c : Call) : Persists m (m.call c).2 := by
  obtain ⟨hlimits, heof⟩ := eof_call hv c
  refine ⟨hlimits, fun hc => (call_of_closing hv hc c).2, fun hc => (mustClose_call hv hc c).1,
    ?_, ?_⟩
  · intro ho
    exact isWriteClosed_iff.2 (closed_write (isWriteClosed_iff.1 ho) (writes hv c))
  · intro hw
    rw [wantsRead_eq_false_iff] at hw ⊢
    exact hw.imp (fun hc => (call_of_closing hv hc c).2) heof

theorem Consistent.calls (h : m.Consistent) (cs : List Call) :
    (m.calls cs).2.Consistent ∧ Persists m (m.calls cs).2 := by
  induction cs generalizing m with
  | nil => exact ⟨h, .refl m⟩
  | cons c cs ih =>
      obtain ⟨hlast, hrest⟩ := ih (h.call c)
      exact ⟨hlast, (persists_call h.valid c).trans hrest⟩

-- ==================================================== nothing is owed more

/-- No more requests are read. -/
structure Shut (m : Machine) : Prop where
  mustClose : m.mustClose = true
  phase : m.phase = .ended ∨ m.phase = .closing

theorem Shut.not_due (h : m.Shut) : ¬ m.Due := by
  intro hd
  rcases h.phase with hp | hp
  · simp [Due, hp, h.mustClose] at hd
  · simp [Due, hp] at hd

/-- A poll of a machine that is shut brings it at most to read no more. -/
theorem Shut.poll {e : Option Event} (h : m.Shut) (hp : Polls m e n) :
    n.Shut ∧ n.owed = m.owed := by
  have within {x : Exchange} {r : Nat} {q : Prop}
      (hb : m.phase = .complete x ∨ m.phase = .readingBody x r) : q := by
    rcases h.phase with hp | hp
    · rcases hb with hb | hb <;> cases hp.symm.trans hb
    · rcases hb with hb | hb <;> cases hp.symm.trans hb
  have starved {o : Machine} {q : Prop} (hs : Starved m o) : q := by
    cases hs with
    | between hb => exact absurd hb.due h.not_due
    | head hf => exact absurd hf.due h.not_due
    | body x r hb => exact within (Or.inr hb)
  cases hp with
  | closed => exact ⟨h, rfl⟩
  | last => exact ⟨⟨rfl, Or.inr rfl⟩, rfl⟩
  | waits hs => exact starved hs
  | peerClosed hs => exact starved hs
  | head hf => exact absurd hf.due h.not_due
  | rejected hf => exact absurd hf.due h.not_due
  | chunk x r hb => exact within (Or.inr hb)
  | messageEnd x hb => exact within (r := 0) (Or.inl hb)

/-- What is owed is only ever taken from the front by an answer. -/
theorem suffix_owed_write {c : Call} {a : Answer} (hw : Writes m c a n)
    (hc : c.isOutbound = true) : n.owed <:+ m.owed := by
  cases hw with
  | begun status headers length ho hx =>
      rw [hx]
      exact List.suffix_cons _ _
  | added => exact List.suffix_refl _
  | @finished declared suppress close =>
      cases close <;> exact List.suffix_refl _
  | whole r ho hx =>
      split
      · exact List.drop_suffix 1 m.owed
      · exact List.drop_suffix 1 m.owed
  | refused => exact List.suffix_refl _
  | failed => exact List.suffix_refl _
  | elsewhere hn => cases hn.symm.trans hc

theorem Shut.aside (h : m.Shut) (ha : Aside m n) (hc : n.mustClose = true) : n.Shut := by
  refine ⟨hc, ?_⟩
  rcases ha.reading with ⟨hp, -⟩ | ⟨hp, -⟩
  · rw [hp]
    exact h.phase
  · exact Or.inr hp

/-- Whatever is called, a machine that is shut stays so, and is owed no
more answers. -/
theorem Shut.call (hv : m.Valid) (h : m.Shut) (c : Call) :
    (m.call c).2.Shut ∧ (m.call c).2.owed <:+ m.owed := by
  have hw := writes hv c
  have hclose := (persists_call hv c).mustClose h.mustClose
  cases c with
  | receive data =>
      obtain ⟨hphase, howed, -, -⟩ := m.arrive_frame data false
      exact ⟨⟨hclose, hphase ▸ h.phase⟩, howed ▸ List.suffix_refl _⟩
  | receiveEof => exact ⟨⟨hclose, h.phase⟩, List.suffix_refl _⟩
  | poll =>
      obtain ⟨hshut, howed⟩ := h.poll (polls hv)
      exact ⟨hshut, howed ▸ List.suffix_refl _⟩
  | startResponse status headers length =>
      exact ⟨h.aside (aside_startResponse m status headers length) hclose, suffix_owed_write hw rfl⟩
  | sendBody data => exact ⟨h.aside (aside_sendBody m data) hclose, suffix_owed_write hw rfl⟩
  | finishResponse => exact ⟨h.aside (aside_finishResponse m) hclose, suffix_owed_write hw rfl⟩
  | sendResponse r => exact ⟨h.aside (aside_sendResponse m r) hclose, suffix_owed_write hw rfl⟩

theorem Shut.suffix_owed_calls (hv : m.Valid) (h : m.Shut) (cs : List Call) :
    (m.calls cs).2.owed <:+ m.owed := by
  induction cs generalizing m with
  | nil => exact List.suffix_refl _
  | cons c cs ih =>
      obtain ⟨hshut, howed⟩ := h.call hv c
      exact (ih (hv.call c) hshut).trans howed

-- ================================================= whose exchange is kept

theorem exchange?_eq_none_of_due (hd : m.Due) : m.phase.exchange? = none ∧ m.phase ≠ .closing := by
  rcases hd with hp | ⟨k, hp⟩ | ⟨hp, -⟩
  · rw [hp]
    exact ⟨rfl, nofun⟩
  · rw [hp]
    exact ⟨rfl, nofun⟩
  · rw [hp]
    exact ⟨rfl, nofun⟩

/-- The exchange that is kept is that of the request which has been noted
as arriving, and of no other. -/
def Keeps (m : Machine) (t : Tally) : Prop :=
  m.phase ≠ .closing → m.phase.exchange? = t.arriving.map Request.exchange

/-- Where a head is due no request is arriving. -/
theorem Keeps.of_due {t : Tally} (h : Keeps m t) (hd : m.Due) (hn : n.phase.exchange? = none) :
    Keeps n t := by
  intro _
  obtain ⟨hnone, hopen⟩ := exchange?_eq_none_of_due hd
  rw [hn, ← h hopen, hnone]

theorem Keeps.poll {t : Tally} {e : Option Event} (h : Keeps m t) (hp : Polls m e n) :
    Keeps n (t.noteAll e.toList) := by
  cases hp with
  | closed => exact h
  | last => exact fun hc => absurd rfl hc
  | waits hs =>
      cases hs with
      | between hb => exact h.of_due hb.due rfl
      | head hf => exact h.of_due hf.due rfl
      | body => exact h
  | peerClosed => exact fun hc => absurd rfl hc
  | @head n head consumed =>
      intro _
      rw [exchange?_acceptHead]
      rfl
  | rejected => exact fun hc => absurd rfl hc
  | chunk x r hp =>
      intro _
      have hx := h (by rw [hp]; nofun)
      rw [hp] at hx
      rw [exchange?_acceptChunk]
      show some x = (t.arriving.map _).map _
      rw [Option.map_map]
      exact hx
  | messageEnd x hp =>
      intro _
      have hx := h (by rw [hp]; nofun)
      rw [hp] at hx
      obtain ⟨r, hr, -⟩ := Option.map_eq_some_iff.1 hx.symm
      show none = (t.note .messageEnd).arriving.map _
      unfold Tally.note
      rw [hr]
      rfl

theorem Keeps.aside {t : Tally} (h : Keeps m t) (hp : n.phase = m.phase ∨ n.phase = .closing) :
    Keeps n t := by
  intro hc
  rcases hp with hp | hp
  · rw [hp] at hc ⊢
    exact h hc
  · exact absurd hp hc

theorem exchange?_calls (limits : Limits) (cs : List Call) :
    Keeps ((start limits).calls cs).2 (noted ((start limits).history cs)) := by
  refine (history_induction (m := start limits) (P := fun h n => n.Valid ∧ Keeps n (noted h))
    ⟨.start limits, fun _ => rfl⟩ ?_ cs).2
  rintro h n c ⟨hv, hk⟩
  refine ⟨hv.call c, ?_⟩
  rw [noted_snoc]
  have hm := moves hv c
  generalize (n.call c).1.event? = e at hm
  generalize (n.call c).2 = n' at hm
  cases hm with
  | receive data => exact hk.aside (Or.inl (n.arrive_frame data false).1)
  | receiveEof => exact hk
  | poll hp => exact hk.poll hp
  | aside hne ha => exact hk.aside (ha.reading.imp And.left And.left)

end WireHttp.Machine
