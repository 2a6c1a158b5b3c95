/-
Arrival does not matter. The bytes of a connection may come in any
pieces, and be polled for at any time between them: once all are there
and the machine is drained, it has brought the same events and is in the
same state, up to the last field, as if they had come at once. Only where
a body was broken into chunks differs, so chunks that follow one another
are joined before events are compared.

Everything rests on one poll (`drain_arrive_of_poll`): to poll before
bytes arrive is to poll after. By the entries of `Polls`:

- an event that needed no more bytes is the same with them there, and so
  is what it leaves (`Facing.arrive` for heads, which a verdict on the
  front of the buffer settles);
- a poll that waits leaves a machine that polls the same (blank lines and
  the bytes already searched are skipped again, `polls_alike_of_starved`);
- a chunk that ends with the buffer and not with the body is the front
  half of the chunk that would have come.

Polls that a run makes between its pieces, and those of a whole drain,
are that many instances of the one.
-/
import WireHttp.Proofs.Machine.Call

namespace WireHttp

-- ==================================================== joining the chunks

/-- An event in front of others: a chunk before a chunk makes one. -/
def Event.attach : Event → List Event → List Event
  | .chunk a, .chunk b :: es => .chunk (a ++ b) :: es
  | e, es => e :: es

/-- Events with the chunks that follow one another joined. -/
def Event.joinChunks : List Event → List Event
  | [] => []
  | e :: es => e.attach (joinChunks es)

namespace Event

theorem attach_attach (a b : Bytes) (es : List Event) :
    attach (.chunk a) (attach (.chunk b) es) = attach (.chunk (a ++ b)) es := by
  cases es with
  | nil => rfl
  | cons e es =>
      cases e with
      | chunk c =>
          show Event.chunk (a ++ (b ++ c)) :: es = Event.chunk (a ++ b ++ c) :: es
          rw [List.append_assoc]
      | _ => rfl

theorem joinChunks_append_congr (front : List Event) {es es' : List Event}
    (h : joinChunks es = joinChunks es') :
    joinChunks (front ++ es) = joinChunks (front ++ es') := by
  induction front with
  | nil => exact h
  | cons e front ih => rw [List.cons_append, List.cons_append, joinChunks, joinChunks, ih]

end Event

/-- Two outcomes that tell the same, whatever chunks they tell it in. -/
structure Alike (a b : List Event × Machine) : Prop where
  events : Event.joinChunks a.1 = Event.joinChunks b.1
  machine : a.2 = b.2

theorem Alike.refl (a : List Event × Machine) : Alike a a := ⟨rfl, rfl⟩

theorem Alike.symm {a b : List Event × Machine} (h : Alike a b) : Alike b a :=
  ⟨h.events.symm, h.machine.symm⟩

theorem Alike.trans {a b c : List Event × Machine} (h : Alike a b) (h' : Alike b c) : Alike a c :=
  ⟨h.events.trans h'.events, h.machine.trans h'.machine⟩

/-- Events that came before are no matter. -/
theorem Alike.append (front : List Event) {a b : List Event × Machine} (h : Alike a b) :
    Alike (front ++ a.1, a.2) (front ++ b.1, b.2) :=
  ⟨Event.joinChunks_append_congr front h.events, h.machine⟩

namespace Machine

-- ============================================================== arrivals

/-- Bytes arrive, after which the machine may be `told` that they were
the last. -/
def arrive (m : Machine) (data : Bytes) (told : Bool) : Machine :=
  { m.receive data with eof := told || (m.receive data).eof }

theorem arrive_false (m : Machine) (data : Bytes) : m.arrive data false = m.receive data := rfl

theorem arrive_true (m : Machine) (data : Bytes) :
    m.arrive data true = (m.receive data).receiveEof := rfl

theorem receive_of_closing {m : Machine} (h : m.phase = .closing) (data : Bytes) :
    m.receive data = m := if_pos h

theorem receive_of_open {m : Machine} (h : m.phase ≠ .closing) (data : Bytes) :
    m.receive data = { m with buffer := m.buffer ++ data } := if_neg h

theorem receive_nil (m : Machine) : m.receive [] = m := by
  by_cases hc : m.phase = .closing
  · exact receive_of_closing hc []
  · rw [receive_of_open hc, List.append_nil]

theorem receive_receive (m : Machine) (a b : Bytes) :
    (m.receive a).receive b = m.receive (a ++ b) := by
  by_cases hc : m.phase = .closing
  · rw [receive_of_closing hc, receive_of_closing hc, receive_of_closing hc]
  · rw [receive_of_open hc, receive_of_open hc, receive_of_open (by exact hc),
      List.append_assoc]

theorem receive_arrive (m : Machine) (a b : Bytes) (told : Bool) :
    (m.receive a).arrive b told = m.arrive (a ++ b) told := by
  unfold arrive
  rw [receive_receive]

theorem arrive_of_open {m : Machine} (h : m.phase ≠ .closing) (data : Bytes) (told : Bool) :
    m.arrive data told = { m with buffer := m.buffer ++ data, eof := told || m.eof } := by
  unfold arrive
  rw [receive_of_open h]

theorem arrive_of_closing {m : Machine} (h : m.phase = .closing) (data : Bytes) (told : Bool) :
    m.arrive data told = { m with eof := told || m.eof } := by
  unfold arrive
  rw [receive_of_closing h]

theorem Valid.arrive {m : Machine} (hv : m.Valid) (data : Bytes) (told : Bool) :
    (m.arrive data told).Valid :=
  (hv.receive data).congr rfl rfl

-- ======================================================= before one poll

theorem Between.ne_closing {m : Machine} (h : m.Between) : m.phase ≠ .closing := by
  intro hc
  rcases h with h | ⟨h, -⟩
  · cases h.symm.trans hc
  · cases h.symm.trans hc

theorem Between.arrive {m : Machine} (h : m.Between) (data : Bytes) (told : Bool) :
    (m.arrive data told).Between := by
  rw [arrive_of_open h.ne_closing]
  exact h

theorem Facing.ne_closing {m n : Machine} (h : Facing m n) :
    m.phase ≠ .closing ∧ n.phase ≠ .closing := by
  cases h with
  | begun h hb => exact ⟨h.ne_closing, nofun⟩
  | resumed k hp => rw [hp]; exact ⟨nofun, nofun⟩

theorem not_isBlank_arrive {m : Machine} (hc : m.phase ≠ .closing) (h : ¬ m.IsBlank)
    (data : Bytes) (told : Bool) : ¬ (m.arrive data told).IsBlank := by
  rw [arrive_of_open hc]
  unfold IsBlank
  rintro (hb | hb)
  · exact h (Or.inl (List.append_eq_nil_iff.1 hb).1)
  · rcases List.append_eq_singleton_iff.1 hb with ⟨hb, -⟩ | ⟨hb, -⟩
    · exact h (Or.inl hb)
    · exact h (Or.inr hb)

/-- A request that has begun goes on in the bytes that arrive. -/
theorem skipped_arrive {m : Machine} (h : m.Between) (hb : ¬ m.skipped.IsBlank)
    (data : Bytes) (told : Bool) : (m.arrive data told).skipped = m.skipped.arrive data told := by
  have hs : m.skipped.phase ≠ .closing := nofun
  rw [arrive_of_open h.ne_closing, arrive_of_open hs]
  unfold skipped
  dsimp only
  rw [skipBlankLines_append_of_begun data hb]

/-- A head that is due is due in more bytes too. -/
theorem Facing.arrive {m n : Machine} (h : Facing m n) (data : Bytes) (told : Bool) :
    Facing (m.arrive data told) (n.arrive data told) := by
  cases h with
  | begun h hb =>
      have hs := skipped_arrive h hb data told
      have hnb := not_isBlank_arrive (m := m.skipped) nofun hb data told
      rw [← hs] at hnb ⊢
      exact .begun (h.arrive data told) hnb
  | resumed k hp =>
      have hc : m.phase ≠ .closing := by rw [hp]; nofun
      rw [arrive_of_open hc]
      exact .resumed k hp

/-- A verdict stands when more bytes arrive. -/
theorem read_arrive {n : Machine} (hc : n.phase ≠ .closing)
    (h : Head.read n.limits n.buffer ≠ .error .incomplete) (data : Bytes) (told : Bool) :
    Head.read (n.arrive data told).limits (n.arrive data told).buffer
      = Head.read n.limits n.buffer := by
  rw [arrive_of_open hc]
  exact Head.read_append data h

/-- A machine that waits polls the same, when more bytes arrive, as it
would have before it waited. -/
theorem poll_arrive_of_starved {m n : Machine} (hv : m.Valid) (hn : n.Valid) (h : Starved m n)
    (data : Bytes) (told : Bool) : (n.arrive data told).poll = (m.arrive data told).poll := by
  cases h with
  | between h hb =>
      have hs : m.skipped.Between := Or.inl rfl
      refine poll_congr_of_between (hs.arrive data told) (h.arrive data told) ?_
      rw [arrive_of_open hs.ne_closing, arrive_of_open h.ne_closing]
      unfold skipped
      dsimp only
      rw [skipBlankLines_append]
  | @head n hf hr =>
      have hc := hf.ne_closing.2
      refine poll_congr_of_facing (p := .readingHead n.buffer.length) (hv.arrive data told)
        (hn.arrive data told) (hf.arrive data told) ?_
      have hc' : { n with phase := .readingHead n.buffer.length }.phase ≠ .closing := nofun
      rw [arrive_of_open hc, arrive_of_open hc']
      exact .resumed _ rfl
  | body x r hp hb => rfl

-- ========================================================== the one poll

theorem alike_of_poll {a b : Machine} {e : Event} (h : a.poll = (some e, b)) :
    Alike a.drain ([e] ++ b.drain.1, b.drain.2) := by
  rw [drain_of_some h]
  exact .refl _

/-- A chunk that the end of the buffer broke off is continued by the
next one. -/
theorem drain_arrive_of_chunk {m : Machine} (hv : m.Valid) {x : Exchange} {r : Nat}
    (hp : m.phase = .readingBody x r) (hb : m.buffer ≠ []) (data : Bytes) (told : Bool) :
    Alike (m.arrive data told).drain
      ([.chunk (m.buffer.take r)] ++ ((m.acceptChunk x r).arrive data told).drain.1,
        ((m.acceptChunk x r).arrive data told).drain.2) := by
  have hc : m.phase ≠ .closing := by rw [hp]; nofun
  have hc' : (m.acceptChunk x r).phase ≠ .closing := by
    unfold acceptChunk
    dsimp only
    split
    · nofun
    · nofun
  have hpoll {a : Machine} (hva : a.Valid) {s : Nat} (hp : a.phase = .readingBody x s)
      (hb : a.buffer ≠ []) : a.poll = (some (.chunk (a.buffer.take s)), a.acceptChunk x s) :=
    (polls_iff hva).1 (.chunk x s hp hb)
  have hfirst := hpoll (hv.arrive data told) (s := r)
    (by rw [arrive_of_open hc]; exact hp)
    (by rw [arrive_of_open hc]; exact fun h => hb (List.append_eq_nil_iff.1 h).1)
  rw [arrive_of_open hc] at hfirst ⊢
  rw [arrive_of_open hc']
  by_cases hr : r ≤ m.buffer.length ∨ data = []
  · -- no byte of the chunk is still to come
    have hsame : (m.buffer ++ data).take r = m.buffer.take r ∧
        (m.buffer ++ data).drop r = m.buffer.drop r ++ data := by
      rcases hr with hr | rfl
      · exact ⟨List.take_append_of_le_length hr, List.drop_append_of_le_length hr⟩
      · simp only [List.append_nil, and_self]
    unfold acceptChunk at hfirst ⊢
    dsimp only at hfirst ⊢
    rw [hsame.1, hsame.2] at hfirst
    exact alike_of_poll hfirst
  · obtain ⟨hr, hd⟩ := not_or.1 hr
    have hlt : m.buffer.length < r := Nat.lt_of_not_le hr
    have htake : m.buffer.take r = m.buffer := List.take_of_length_le (Nat.le_of_lt hlt)
    have hdrop : m.buffer.drop r = [] := List.drop_of_length_le (Nat.le_of_lt hlt)
    have hleft : r - m.buffer.length ≠ 0 := by omega
    have hopen : m.acceptChunk x r =
        { m with buffer := [], phase := .readingBody x (r - m.buffer.length) } := by
      unfold acceptChunk
      rw [htake, hdrop, if_neg hleft]
    have hva := (valid_acceptChunk m x r).arrive data told
    rw [arrive_of_open hc', hopen] at hva
    have hsecond := hpoll hva rfl hd
    have hnext : { m with buffer := m.buffer ++ data, eof := told || m.eof }.acceptChunk x r
        = Machine.acceptChunk
          { m with
            buffer := [] ++ data
            phase := .readingBody x (r - m.buffer.length)
            eof := told || m.eof } x (r - m.buffer.length) := by
      unfold acceptChunk
      have hlen : r - ((m.buffer ++ data).take r).length
          = r - m.buffer.length - (data.take (r - m.buffer.length)).length := by
        simp only [List.length_take, List.length_append]
        omega
      dsimp only
      rw [List.nil_append, hlen, List.drop_append, hdrop, List.nil_append]
    rw [hopen, drain_of_some hfirst, drain_of_some hsecond, hnext]
    refine ⟨?_, rfl⟩
    show Event.attach _ _ = Event.attach _ (Event.attach _ _)
    rw [Event.attach_attach, htake, List.take_append, htake]
    rfl

theorem acceptHead_arrive {n : Machine} {head : Head} {consumed : Nat} (hc : n.phase ≠ .closing)
    (hr : Head.read n.limits n.buffer = .ok (head, consumed)) (data : Bytes) (told : Bool) :
    (n.arrive data told).acceptHead head consumed
      = (n.acceptHead head consumed).arrive data told := by
  have hc' : (n.acceptHead head consumed).phase ≠ .closing := by
    unfold acceptHead
    dsimp only
    split
    · nofun
    · nofun
  rw [arrive_of_open hc, arrive_of_open hc']
  unfold acceptHead
  dsimp only
  rw [List.drop_append_of_le_length (Head.consumed_of_read hr).2]

/-- To poll before bytes arrive is to poll after. -/
theorem drain_arrive_of_poll {m : Machine} (hv : m.Valid) (he : m.eof = false) (data : Bytes)
    (told : Bool) :
    Alike (m.arrive data told).drain
      (m.poll.1.toList ++ (m.poll.2.arrive data told).drain.1,
        (m.poll.2.arrive data told).drain.2) := by
  have hv' := hv.poll
  have hp := polls hv
  generalize m.poll.1 = e at hp
  generalize m.poll.2 = n at hp hv'
  have hva := hv.arrive data told
  cases hp with
  | closed hp => exact .refl _
  | last hp hc =>
      have hne : m.phase ≠ .closing := by rw [hp]; nofun
      have hpoll : (m.arrive data told).poll = (none, (m.arrive data told).enterClosing) := by
        refine (polls_iff hva).1 (.last ?_ ?_)
        · rw [arrive_of_open hne]; exact hp
        · rw [arrive_of_open hne]; exact hc
      have hclosed : (m.enterClosing.arrive data told).poll
          = (none, m.enterClosing.arrive data told) :=
        (polls_iff ((Valid.enterClosing m).arrive data told)).1 (.closed rfl)
      rw [drain_of_none hpoll, drain_of_none hclosed, arrive_of_open hne, arrive_of_closing rfl]
      exact .refl _
  | waits hs he =>
      rw [← drain_congr (poll_arrive_of_starved hv hv' hs data told)]
      exact .refl _
  | peerClosed hs he' => cases he.symm.trans he'
  | @head n head consumed hf hr =>
      have hc := hf.ne_closing.2
      have hr' : Head.read (n.arrive data told).limits (n.arrive data told).buffer
          = .ok (head, consumed) := by
        rw [read_arrive hc (by rw [hr]; nofun), hr]
      have hpoll := (polls_iff hva).1 (.head (hf.arrive data told) hr')
      rw [acceptHead_arrive hc hr] at hpoll
      exact alike_of_poll hpoll
  | @rejected n e hf hr hne =>
      have hc := hf.ne_closing.2
      have hr' : Head.read (n.arrive data told).limits (n.arrive data told).buffer
          = .error e := by
        rw [read_arrive hc (by rw [hr]; exact fun h => hne (Except.error.inj h)), hr]
      have hpoll := (polls_iff hva).1 (.rejected (hf.arrive data told) hr' hne)
      have hnext : (n.arrive data told).rejectHead = n.rejectHead.arrive data told := by
        rw [arrive_of_open hc, arrive_of_closing rfl]
        rfl
      rw [hnext] at hpoll
      exact alike_of_poll hpoll
  | chunk x r hp hb => exact drain_arrive_of_chunk hv hp hb data told
  | messageEnd x hp =>
      have hc : m.phase ≠ .closing := by rw [hp]; nofun
      have hpoll := (polls_iff hva).1 (.messageEnd x (by rw [arrive_of_open hc]; exact hp))
      have hnext : { m.arrive data told with
          phase := .ended, owed := (m.arrive data told).owed ++ [x] }
            = { m with phase := .ended, owed := m.owed ++ [x] }.arrive data told := by
        have hc' : { m with phase := .ended, owed := m.owed ++ [x] }.phase ≠ .closing := nofun
        rw [arrive_of_open hc, arrive_of_open hc']
      rw [hnext] at hpoll
      exact alike_of_poll hpoll

-- =========================================================== many polls

/-- To drain before bytes arrive is to drain after. -/
theorem drain_arrive_of_drain {m : Machine} (hv : m.Valid) (he : m.eof = false) (data : Bytes)
    (told : Bool) :
    Alike (m.arrive data told).drain
      (m.drain.1 ++ (m.drain.2.arrive data told).drain.1,
        (m.drain.2.arrive data told).drain.2) := by
  refine drain_induction
    (P := fun m es last => m.Valid → m.eof = false → Alike (m.arrive data told).drain
      (es ++ (last.arrive data told).drain.1, (last.arrive data told).drain.2))
    ?_ ?_ m hv he
  · intro m n hp hv he
    have h := drain_arrive_of_poll hv he data told
    rw [hp] at h
    exact h
  · intro m n e hp ih hv he
    have h := drain_arrive_of_poll hv he data told
    have hv' := hv.poll
    have he' := (poll_frame hv).eof.trans he
    rw [hp] at h hv' he'
    exact h.trans ((ih hv' he').append [e])

/-- To receive and to poll in any order before the last bytes arrive is
to receive at once. -/
theorem drain_arrive_of_calls {m : Machine} (hv : m.Valid) (he : m.eof = false)
    {cs : List Call} (hcs : ∀ c ∈ cs, (∃ data, c = .receive data) ∨ c = .poll) (told : Bool) :
    Alike (m.arrive (cs.flatMap Call.data) told).drain
      (m.events cs ++ ((m.calls cs).2.arrive [] told).drain.1,
        ((m.calls cs).2.arrive [] told).drain.2) := by
  induction cs generalizing m with
  | nil => exact .refl _
  | cons c cs ih =>
      have hcs' := fun d hd => hcs d (List.mem_cons_of_mem c hd)
      rcases hcs c (List.mem_cons_self ..) with ⟨data, rfl⟩ | rfl
      · have he' : (m.receive data).eof = false := by
          rw [(m.sameFrame_receive data).eof, he]
        have h := ih (hv.receive data) he' hcs'
        rw [receive_arrive] at h
        exact h
      · have h := drain_arrive_of_poll hv he (cs.flatMap Call.data) told
        have h' := ih hv.poll ((poll_frame hv).eof.trans he) hcs'
        have hev : m.events (.poll :: cs) = m.poll.1.toList ++ m.poll.2.events cs := by
          rw [← List.singleton_append, events_append, events_singleton]
          rfl
        rw [hev, List.append_assoc]
        exact h.trans (h'.append m.poll.1.toList)

/-- The calls that bring pieces one after the other, each followed by
some polls. -/
def arrivals (pieces : List (Bytes × Nat)) : List Call :=
  pieces.flatMap fun (data, polls) => .receive data :: List.replicate polls .poll

theorem data_arrivals (pieces : List (Bytes × Nat)) :
    (arrivals pieces).flatMap Call.data = pieces.flatMap Prod.fst := by
  unfold arrivals
  induction pieces with
  | nil => rfl
  | cons piece pieces ih =>
      have hpolls : (List.replicate piece.2 Call.poll).flatMap Call.data = [] := by
        rw [List.flatMap_eq_nil_iff]
        intro c hc
        rw [List.eq_of_mem_replicate hc]
        rfl
      rw [List.flatMap_cons, List.flatMap_append, ih, List.flatMap_cons, hpolls,
        List.append_nil, List.flatMap_cons]
      rfl

/-- However bytes are cut into pieces, and however often the machine is
polled after each of them, once it is drained it has brought the same
events, chunks joined, and is in the same state as if they had arrived at
once; and so it is if the peer then closes its writing side. -/
theorem drain_arrivals (limits : Limits) (pieces : List (Bytes × Nat)) :
    let cut := ((start limits).calls (arrivals pieces)).2
    let whole := (start limits).receive (pieces.flatMap Prod.fst)
    Alike ((start limits).events (arrivals pieces) ++ cut.drain.1, cut.drain.2) whole.drain ∧
    Alike ((start limits).events (arrivals pieces) ++ cut.receiveEof.drain.1,
      cut.receiveEof.drain.2) whole.receiveEof.drain := by
  have hcs : ∀ c ∈ arrivals pieces, (∃ data, c = .receive data) ∨ c = .poll := by
    intro c hc
    obtain ⟨piece, -, hc⟩ := List.mem_flatMap.1 hc
    rcases List.mem_cons.1 hc with rfl | hc
    · exact Or.inl ⟨piece.1, rfl⟩
    · exact Or.inr (List.eq_of_mem_replicate hc)
  have h := drain_arrive_of_calls (Valid.start limits) rfl hcs
  rw [data_arrivals] at h
  have hopen := (h false).symm
  have htold := (h true).symm
  rw [arrive_false, arrive_false, receive_nil] at hopen
  rw [arrive_true, arrive_true, receive_nil] at htold
  exact ⟨hopen, htold⟩

end Machine

end WireHttp
