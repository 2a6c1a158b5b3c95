/-
What a poll does, said once for every later argument.

A poll for a head takes its search up where the last one stopped, and
whether it looks at the head at all hangs on that search. Neither shows
in the outcome: a poll for a head is the verdict on the buffer, provided
the bytes marked as searched hold no delimiter. `Valid` carries that
proviso, with the two other facts about the receiving half that are not
in the types, and every call keeps it (`Valid.receive`, `Valid.poll`).

`Polls` lists what a poll of a valid machine can do, guards included, and
`polls_iff` says that the list is exact. Everything else about polls is a
case analysis of it:

- they append to what is owed and look at nothing in it, nor at what is
  being written (`Polls.beside`, `poll_owing`);
- they leave the limits, the end mark and the writing side alone
  (`poll_frame`).

So the receiving half runs the same whatever has been answered meanwhile.
-/
import WireHttp.Machine.Drain
import WireHttp.Machine.Outbound
import WireHttp.Proofs.Head.Verdict

namespace WireHttp.Machine

-- ======================================================== blank lines

/-- Skipping may be put off until more bytes are there. -/
theorem skipBlankLines_append (bs ext : Bytes) :
    skipBlankLines (skipBlankLines bs ++ ext) = skipBlankLines (bs ++ ext) := by
  fun_induction skipBlankLines bs with
  | case1 bs ih => rw [ih]; rfl
  | case2 => rfl

/-- After the blank lines there is none at the front. -/
theorem not_lineEnd_prefix_skipBlankLines (bs : Bytes) :
    ¬ [13, 10] <+: skipBlankLines bs := by
  fun_induction skipBlankLines bs with
  | case1 bs ih => exact ih
  | case2 bs hne =>
      rintro ⟨rest, rfl⟩
      exact hne rest rfl

/-- Bytes that do not begin with a blank line are kept as they are. -/
theorem skipBlankLines_eq_self {bs : Bytes} (h : ¬ [13, 10] <+: bs) :
    skipBlankLines bs = bs := by
  unfold skipBlankLines
  split
  · next rest => exact absurd ⟨rest, rfl⟩ h
  · rfl

theorem skipBlankLines_skipBlankLines (bs : Bytes) :
    skipBlankLines (skipBlankLines bs) = skipBlankLines bs :=
  skipBlankLines_eq_self (not_lineEnd_prefix_skipBlankLines bs)

/-- Once a request has begun, what arrives is no blank line before it. -/
theorem skipBlankLines_append_of_begun {bs : Bytes} (ext : Bytes)
    (h : ¬ (skipBlankLines bs = [] ∨ skipBlankLines bs = [13])) :
    skipBlankLines (bs ++ ext) = skipBlankLines bs ++ ext := by
  rw [← skipBlankLines_append]
  apply skipBlankLines_eq_self
  intro hp
  have hs := not_lineEnd_prefix_skipBlankLines bs
  generalize skipBlankLines bs = front at h hs hp
  match front with
  | [] => exact h (Or.inl rfl)
  | [b] =>
      rw [List.cons_append, List.cons_prefix_cons] at hp
      exact h (Or.inr (by rw [← hp.1]))
  | b :: c :: rest =>
      simp only [List.cons_append, List.cons_prefix_cons] at hp
      refine hs ⟨rest, ?_⟩
      rw [hp.1, hp.2.1]
      rfl

-- ====================================================== the invariant

/-- What holds of the receiving half of every machine that has been
started and called: its search has missed no delimiter, a body that is
being read is not yet complete, and a machine that reads no more keeps
no bytes. -/
structure Valid (m : Machine) : Prop where
  scanned : ∀ k, m.phase = .readingHead k →
    k ≤ m.buffer.length ∧ Delimiter.find? (m.buffer.take k) 0 = none
  remaining : ∀ x r, m.phase = .readingBody x r → 0 < r
  dropped : m.phase = .closing → m.buffer = []

/-- A new connection is valid. -/
theorem Valid.start (limits : Limits) : (start limits).Valid :=
  ⟨nofun, nofun, nofun⟩

/-- Closing needs no precondition. -/
theorem Valid.enterClosing (m : Machine) : m.enterClosing.Valid :=
  ⟨nofun, nofun, fun _ => rfl⟩

/-- Only the phase and the buffer matter. -/
theorem Valid.congr {m n : Machine} (h : m.Valid) (hp : n.phase = m.phase)
    (hb : n.buffer = m.buffer) : n.Valid :=
  ⟨by rw [hp, hb]; exact h.scanned, by rw [hp]; exact h.remaining,
    by rw [hp, hb]; exact h.dropped⟩

/-- Bytes that arrive leave what was searched where it was. -/
theorem Valid.receive {m : Machine} (h : m.Valid) (data : Bytes) : (m.receive data).Valid := by
  unfold Machine.receive
  split
  · exact h
  · next hc =>
    refine ⟨?_, h.remaining, fun hk => absurd hk hc⟩
    intro k hk
    obtain ⟨hle, hnone⟩ := h.scanned k hk
    dsimp only
    rw [List.take_append_of_le_length hle, List.length_append]
    exact ⟨Nat.le_add_right_of_le hle, hnone⟩

theorem Valid.receiveEof {m : Machine} (h : m.Valid) : m.receiveEof.Valid :=
  h.congr rfl rfl

-- ================================================ what a poll can do

/-- No request is under way, and another one may come. -/
def Between (m : Machine) : Prop :=
  m.phase = .idle ∨ m.phase = .ended ∧ m.mustClose = false

/-- The machine with the blank lines at the front skipped. -/
def skipped (m : Machine) : Machine :=
  { m with phase := .idle, buffer := skipBlankLines m.buffer }

/-- Of the next request nothing has arrived, or no more than what may
become a blank line. -/
def IsBlank (m : Machine) : Prop :=
  m.buffer = [] ∨ m.buffer = [13]

/-- A head is due, and its bytes are those that `n` has. -/
inductive Facing (m : Machine) : Machine → Prop
  | begun : m.Between → ¬ m.skipped.IsBlank → Facing m m.skipped
  | resumed (k : Nat) : m.phase = .readingHead k → Facing m m

/-- Nothing can be said before more bytes arrive, and `n` waits for
them. -/
inductive Starved (m : Machine) : Machine → Prop
  | between : m.Between → m.skipped.IsBlank → Starved m m.skipped
  | head {n : Machine} : Facing m n → Head.read n.limits n.buffer = .error .incomplete →
      Starved m { n with phase := .readingHead n.buffer.length }
  | body (x : Exchange) (r : Nat) : m.phase = .readingBody x r → m.buffer = [] → Starved m m

/-- The machine after a chunk of a body of which `r` bytes were to come. -/
def acceptChunk (m : Machine) (x : Exchange) (r : Nat) : Machine :=
  { m with
    buffer := m.buffer.drop r
    phase :=
      if r - (m.buffer.take r).length = 0 then .complete x
      else .readingBody x (r - (m.buffer.take r).length) }

/-- What a poll can do. -/
inductive Polls (m : Machine) : Option Event → Machine → Prop
  | closed : m.phase = .closing → Polls m none m
  | last : m.phase = .ended → m.mustClose = true → Polls m none m.enterClosing
  | waits {n : Machine} : Starved m n → m.eof = false → Polls m none n
  | peerClosed {n : Machine} : Starved m n → m.eof = true →
      Polls m (some .peerClosed) m.enterClosing
  | head {n : Machine} {head : Head} {consumed : Nat} : Facing m n →
      Head.read n.limits n.buffer = .ok (head, consumed) →
      Polls m (some (.head head)) (n.acceptHead head consumed)
  | rejected {n : Machine} {e : HeadError} : Facing m n →
      Head.read n.limits n.buffer = .error e → e ≠ .incomplete →
      Polls m (some (.rejected e)) n.rejectHead
  | chunk (x : Exchange) (r : Nat) : m.phase = .readingBody x r → m.buffer ≠ [] →
      Polls m (some (.chunk (m.buffer.take r))) (m.acceptChunk x r)
  | messageEnd (x : Exchange) : m.phase = .complete x →
      Polls m (some .messageEnd) { m with phase := .ended, owed := m.owed ++ [x] }

-- ================================================== the list is exact

/-- What a poll makes of the head at the front of the buffer. -/
private def judge (m : Machine) : Option Event × Machine :=
  match Head.read m.limits m.buffer with
  | .ok (head, consumed) => (some (.head head), m.acceptHead head consumed)
  | .error .incomplete => { m with phase := .readingHead m.buffer.length }.starve
  | .error e => (some (.rejected e), m.rejectHead)

/-- A poll for a head is the verdict on the buffer: neither the place
where the search is taken up nor the early look at the limit shows. -/
private theorem pollHead_eq_judge {m : Machine} {k : Nat}
    (h : Delimiter.find? (m.buffer.take k) 0 = none) : m.pollHead k = m.judge := by
  unfold pollHead judge
  rw [Delimiter.find?_resume h]
  by_cases hinc : Head.read m.limits m.buffer = .error .incomplete
  · obtain ⟨hnone, hlen⟩ := Head.read_eq_incomplete_iff.1 hinc
    rw [hinc, hnone, if_pos (by simp [hlen])]
  · have hguard :
        ¬ ((Delimiter.find? m.buffer 0).isNone && m.buffer.length ≤ m.limits.maxHead) := by
      rw [Bool.and_eq_true, decide_eq_true_eq, Option.isNone_iff_eq_none]
      exact fun hg => hinc (Head.read_eq_incomplete_iff.2 hg)
    rw [if_neg hguard]
    cases hr : Head.read m.limits m.buffer with
    | ok r => rfl
    | error e =>
        cases e with
        | incomplete => exact absurd hr hinc
        | _ => rfl

private theorem pollHead_zero (m : Machine) : m.pollHead 0 = m.judge :=
  pollHead_eq_judge (by rw [List.take_zero]; rfl)

theorem poll_of_between {m : Machine} (h : m.Between) : m.poll = m.pollIdle := by
  unfold poll
  rcases h with hp | ⟨hp, hc⟩
  · rw [hp]
  · rw [hp, hc]
    rfl

private theorem poll_of_blank {m : Machine} (h : m.Between) (hb : m.skipped.IsBlank) :
    m.poll = m.skipped.starve := by
  rw [poll_of_between h]
  exact if_pos hb

private theorem poll_of_facing {m n : Machine} (hv : m.Valid) (h : Facing m n) :
    m.poll = n.judge := by
  cases h with
  | begun h hb =>
      rw [poll_of_between h, ← pollHead_zero]
      exact if_neg hb
  | resumed k hp =>
      unfold poll
      rw [hp]
      exact pollHead_eq_judge (hv.scanned k hp).2

private theorem Facing.eof_eq {m n : Machine} (h : Facing m n) : n.eof = m.eof := by
  cases h <;> rfl

private theorem Facing.enterClosing_eq {m n : Machine} (h : Facing m n) :
    n.enterClosing = m.enterClosing := by
  cases h <;> rfl

private theorem starve_of_eof {m : Machine} (h : m.eof = true) :
    m.starve = (some .peerClosed, m.enterClosing) := by
  rw [starve, if_pos h]

private theorem starve_of_not_eof {m : Machine} (h : m.eof = false) : m.starve = (none, m) := by
  rw [starve, h]
  rfl

/-- A starved machine waits, or it is told that nothing more comes. -/
private theorem poll_of_starved {m n : Machine} (hv : m.Valid) (h : Starved m n) :
    m.poll = n.starve ∧ n.eof = m.eof ∧ n.enterClosing = m.enterClosing := by
  cases h with
  | between h hb => exact ⟨poll_of_blank h hb, rfl, rfl⟩
  | head hf hr =>
      refine ⟨?_, hf.eof_eq, hf.enterClosing_eq⟩
      rw [poll_of_facing hv hf, judge, hr]
  | body x r hp hb =>
      refine ⟨?_, rfl, rfl⟩
      unfold poll
      rw [hp]
      exact if_pos hb

/-- Whatever the list allows is what a poll does. -/
theorem Polls.poll_eq {m m' : Machine} {e : Option Event} (hv : m.Valid) (h : Polls m e m') :
    m.poll = (e, m') := by
  cases h with
  | closed hp =>
      unfold poll
      rw [hp]
  | last hp hc =>
      unfold poll
      rw [hp]
      exact if_pos hc
  | waits hs he =>
      obtain ⟨hpoll, heof, -⟩ := poll_of_starved hv hs
      rw [hpoll, starve_of_not_eof (heof.trans he)]
  | peerClosed hs he =>
      obtain ⟨hpoll, heof, hclose⟩ := poll_of_starved hv hs
      rw [hpoll, starve_of_eof (heof.trans he), hclose]
  | head hf hr => rw [poll_of_facing hv hf, judge, hr]
  | @rejected n e hf hr hne =>
      rw [poll_of_facing hv hf, judge, hr]
      cases e with
      | incomplete => exact absurd rfl hne
      | _ => rfl
  | chunk x r hp hb =>
      unfold poll
      rw [hp]
      exact if_neg hb
  | messageEnd x hp =>
      unfold poll
      rw [hp]

private theorem polls_of_starved {m n : Machine} (hs : Starved m n) :
    ∃ e m', Polls m e m' := by
  cases he : m.eof with
  | false => exact ⟨_, _, .waits hs he⟩
  | true => exact ⟨_, _, .peerClosed hs he⟩

private theorem polls_of_facing {m n : Machine} (hf : Facing m n) : ∃ e m', Polls m e m' := by
  cases hr : Head.read n.limits n.buffer with
  | ok r => exact ⟨_, _, .head hf hr⟩
  | error e =>
      by_cases hinc : e = .incomplete
      · exact polls_of_starved (.head hf (hinc ▸ hr))
      · exact ⟨_, _, .rejected hf hr hinc⟩

/-- Some entry of the list applies to every machine. -/
private theorem exists_polls (m : Machine) : ∃ e m', Polls m e m' := by
  have between : m.Between → ∃ e m', Polls m e m' := by
    intro h
    by_cases hb : m.skipped.IsBlank
    · exact polls_of_starved (.between h hb)
    · exact polls_of_facing (.begun h hb)
  cases hp : m.phase with
  | idle => exact between (Or.inl hp)
  | readingHead k => exact polls_of_facing (.resumed k hp)
  | readingBody x r =>
      by_cases hb : m.buffer = []
      · exact polls_of_starved (.body x r hp hb)
      · exact ⟨_, _, .chunk x r hp hb⟩
  | complete x => exact ⟨_, _, .messageEnd x hp⟩
  | ended =>
      cases hc : m.mustClose with
      | false => exact between (Or.inr ⟨hp, hc⟩)
      | true => exact ⟨_, _, .last hp hc⟩
  | closing => exact ⟨_, _, .closed hp⟩

/-- What a poll of a valid machine does is what the list says, and no
other entry of the list applies. -/
theorem polls_iff {m m' : Machine} {e : Option Event} (hv : m.Valid) :
    Polls m e m' ↔ m.poll = (e, m') := by
  refine ⟨fun h => h.poll_eq hv, ?_⟩
  intro h
  obtain ⟨e₁, m₁, hp⟩ := exists_polls m
  obtain ⟨rfl, rfl⟩ := Prod.mk.inj ((hp.poll_eq hv).symm.trans h)
  exact hp

/-- The entry of the list that a poll follows. -/
theorem polls {m : Machine} (hv : m.Valid) : Polls m m.poll.1 m.poll.2 :=
  (polls_iff hv).2 rfl

/-- Between two requests a poll looks at what is left after the blank
lines. -/
theorem poll_congr_of_between {m n : Machine} (hm : m.Between) (hn : n.Between)
    (h : m.skipped = n.skipped) : m.poll = n.poll := by
  rw [poll_of_between hm, poll_of_between hn]
  have at_skipped (m : Machine) : m.pollIdle =
      if m.skipped.buffer = [] ∨ m.skipped.buffer = [13] then m.skipped.starve
      else m.skipped.pollHead 0 := rfl
  rw [at_skipped, at_skipped, h]

/-- When a head is due a poll does not look at how much was searched. -/
theorem poll_congr_of_facing {m m' n : Machine} {p : Phase} (hv : m.Valid) (hv' : m'.Valid)
    (h : Facing m n) (h' : Facing m' { n with phase := p }) : m'.poll = m.poll := by
  rw [poll_of_facing hv h, poll_of_facing hv' h']
  rfl

-- ======================================================= what it keeps

/-- A machine in one of the phases that `Valid` says nothing about. -/
private theorem Valid.of_phase {m : Machine} (hh : ∀ k, m.phase ≠ .readingHead k)
    (hb : ∀ x r, m.phase ≠ .readingBody x r) (hc : m.phase ≠ .closing) : m.Valid :=
  ⟨fun k h => absurd h (hh k), fun x r h => absurd h (hb x r), fun h => absurd h hc⟩

/-- After a head its body is due, or it has none. -/
theorem phase_acceptHead (m : Machine) (head : Head) (consumed : Nat) :
    (m.acceptHead head consumed).phase = .complete (.ofHead head) ∧ head.contentLength = 0 ∨
      (m.acceptHead head consumed).phase = .readingBody (.ofHead head) head.contentLength := by
  by_cases hl : head.contentLength = 0
  · exact Or.inl ⟨if_pos hl, hl⟩
  · exact Or.inr (if_neg hl)

/-- After a chunk the rest of the body is due, or it was the last. -/
theorem phase_acceptChunk (m : Machine) (x : Exchange) (r : Nat) :
    (m.acceptChunk x r).phase = .complete x ∧ r - (m.buffer.take r).length = 0 ∨
      (m.acceptChunk x r).phase = .readingBody x (r - (m.buffer.take r).length) := by
  by_cases hl : r - (m.buffer.take r).length = 0
  · exact Or.inl ⟨if_pos hl, hl⟩
  · exact Or.inr (if_neg hl)

theorem valid_acceptHead (m : Machine) (head : Head) (consumed : Nat) :
    (m.acceptHead head consumed).Valid := by
  unfold acceptHead
  by_cases hl : head.contentLength = 0
  · simp only [hl, if_true]
    exact Valid.of_phase nofun nofun nofun
  · simp only [hl, if_false]
    refine ⟨nofun, ?_, nofun⟩
    intro x r h
    cases h
    exact Nat.pos_of_ne_zero hl

theorem valid_acceptChunk (m : Machine) (x : Exchange) (r : Nat) : (m.acceptChunk x r).Valid := by
  unfold acceptChunk
  by_cases hl : r - (m.buffer.take r).length = 0
  · simp only [hl, if_true]
    exact Valid.of_phase nofun nofun nofun
  · simp only [hl, if_false]
    refine ⟨nofun, ?_, nofun⟩
    intro y s h
    cases h
    exact Nat.pos_of_ne_zero hl

/-- A poll keeps the receiving half valid. -/
theorem Valid.poll {m : Machine} (hv : m.Valid) : m.poll.2.Valid := by
  have hp := polls hv
  generalize m.poll.1 = e at hp
  generalize m.poll.2 = m' at hp
  cases hp with
  | closed hp => exact hv
  | last hp hc => exact Valid.enterClosing m
  | waits hs he =>
      cases hs with
      | between h hb => exact Valid.of_phase nofun nofun nofun
      | head hf hr =>
          refine ⟨?_, nofun, nofun⟩
          intro k hk
          cases hk
          exact ⟨Nat.le_refl _, Delimiter.find?_take _ (Head.read_eq_incomplete_iff.1 hr).1⟩
      | body x r hp hb => exact hv
  | peerClosed hs he => exact Valid.enterClosing m
  | @head n head consumed hf hr => exact valid_acceptHead n head consumed
  | @rejected n e hf hr hne => exact (Valid.enterClosing n).congr rfl rfl
  | chunk x r hp hb => exact valid_acceptChunk m x r
  | messageEnd x hp => exact Valid.of_phase nofun nofun nofun

theorem Polls.valid {m n : Machine} {e : Option Event} (h : Polls m e n) (hv : m.Valid) :
    n.Valid := by
  have hpoll := hv.poll
  rwa [h.poll_eq hv] at hpoll

-- ============================================================ the frame

/-- What neither a poll nor any number of them changes. -/
structure SameFrame (m n : Machine) : Prop where
  limits : n.limits = m.limits
  eof : n.eof = m.eof
  outbound : n.outbound = m.outbound

theorem SameFrame.refl (m : Machine) : SameFrame m m := ⟨rfl, rfl, rfl⟩

theorem SameFrame.trans {m n o : Machine} (h : SameFrame m n) (h' : SameFrame n o) :
    SameFrame m o :=
  ⟨h'.limits.trans h.limits, h'.eof.trans h.eof, h'.outbound.trans h.outbound⟩

/-- Bytes that arrive leave all this as it was. -/
theorem sameFrame_receive (m : Machine) (data : Bytes) : SameFrame m (m.receive data) := by
  unfold Machine.receive
  split
  · exact .refl m
  · exact ⟨rfl, rfl, rfl⟩

private theorem Facing.sameFrame {m n : Machine} (h : Facing m n) : SameFrame m n := by
  cases h <;> exact ⟨rfl, rfl, rfl⟩

/-- A poll changes neither the limits nor what is known of the end of
the stream nor the writing side. -/
theorem poll_frame {m : Machine} (hv : m.Valid) : SameFrame m m.poll.2 := by
  have hp := polls hv
  generalize m.poll.1 = e at hp
  generalize m.poll.2 = m' at hp
  cases hp with
  | waits hs he =>
      cases hs with
      | between h hb => exact ⟨rfl, rfl, rfl⟩
      | head hf hr => exact hf.sameFrame.trans ⟨rfl, rfl, rfl⟩
      | body x r hp hb => exact .refl m
  | head hf hr => exact hf.sameFrame.trans ⟨rfl, rfl, rfl⟩
  | rejected hf hr hne => exact hf.sameFrame.trans ⟨rfl, rfl, rfl⟩
  | _ => exact ⟨rfl, rfl, rfl⟩

-- ====================================================== what is not asked

/-- A machine that owes other answers and is writing something else. -/
def beside (m : Machine) (owed : List Exchange) (outbound : Outbound) : Machine :=
  { m with owed, outbound }

private theorem Facing.beside {m n : Machine} (h : Facing m n) (owed : List Exchange)
    (outbound : Outbound) : Facing (m.beside owed outbound) (n.beside owed outbound) := by
  cases h with
  | begun h hb => exact .begun h hb
  | resumed k hp => exact .resumed k hp

private theorem Starved.beside {m n : Machine} (h : Starved m n) (owed : List Exchange)
    (outbound : Outbound) : Starved (m.beside owed outbound) (n.beside owed outbound) := by
  cases h with
  | between h hb => exact .between h hb
  | head hf hr => exact .head (hf.beside owed outbound) hr
  | body x r hp hb => exact .body x r hp hb

theorem Facing.owed_eq {m n : Machine} (h : Facing m n) : n.owed = m.owed := by
  cases h <;> rfl

theorem Starved.owed_eq {m n : Machine} (h : Starved m n) : n.owed = m.owed := by
  cases h with
  | between | body => rfl
  | head hf => exact hf.owed_eq

/-- A poll asks neither what is owed nor what is being written: whatever
that is, it appends the same to what is owed, and does the same else. -/
theorem Polls.beside {m n : Machine} {e : Option Event} (h : Polls m e n) :
    ∃ added, n.owed = m.owed ++ added ∧ ∀ owed outbound,
      Polls (m.beside owed outbound) e (n.beside (owed ++ added) outbound) := by
  have nothing (ho : n.owed = m.owed)
      (hp : ∀ owed outbound, Polls (m.beside owed outbound) e (n.beside owed outbound)) :
      ∃ added, n.owed = m.owed ++ added ∧ ∀ owed outbound,
        Polls (m.beside owed outbound) e (n.beside (owed ++ added) outbound) := by
    refine ⟨[], by rw [ho, List.append_nil], fun owed outbound => ?_⟩
    rw [List.append_nil]
    exact hp owed outbound
  cases h with
  | closed hp => exact nothing rfl fun _ _ => .closed hp
  | last hp hc => exact nothing rfl fun _ _ => .last hp hc
  | waits hs he => exact nothing hs.owed_eq fun xs o => .waits (hs.beside xs o) he
  | peerClosed hs he => exact nothing rfl fun xs o => .peerClosed (hs.beside xs o) he
  | head hf hr => exact nothing hf.owed_eq fun xs o => .head (hf.beside xs o) hr
  | @rejected n e hf hr hne =>
      refine ⟨[.rejected], ?_, fun xs o => .rejected (hf.beside xs o) hr hne⟩
      show n.owed ++ [.rejected] = m.owed ++ [.rejected]
      rw [hf.owed_eq]
  | chunk x r hp hb => exact nothing rfl fun _ _ => .chunk x r hp hb
  | messageEnd x hp => exact ⟨[x], rfl, fun _ _ => .messageEnd x hp⟩

/-- A machine that owes more, to requests that came earlier. -/
def owing (m : Machine) (earlier : List Exchange) : Machine :=
  { m with owed := earlier ++ m.owed }

/-- A poll neither looks at what is owed to earlier requests nor changes
it: it appends. -/
theorem poll_owing {m : Machine} (hv : m.Valid) (xs : List Exchange) :
    (m.owing xs).poll = (m.poll.1, m.poll.2.owing xs) := by
  obtain ⟨added, howed, hp⟩ := (polls hv).beside
  have hframe := poll_frame hv
  have hafter : m.poll.2.owing xs = m.poll.2.beside ((xs ++ m.owed) ++ added) m.outbound := by
    unfold owing Machine.beside
    rw [howed, ← hframe.outbound, List.append_assoc]
  rw [hafter]
  exact (hp (xs ++ m.owed) m.outbound).poll_eq (hv.congr rfl rfl)

-- ============================================================= draining

/-- A machine without an event is drained. -/
theorem drain_of_none {m m' : Machine} (h : m.poll = (none, m')) : m.drain = ([], m') := by
  rw [drain]
  split
  · next h' =>
    rw [h] at h'
    cases h'
    rfl
  · next h' =>
    rw [h] at h'
    cases h'

/-- An event is the first of those that draining gives. -/
theorem drain_of_some {m m' : Machine} {e : Event} (h : m.poll = (some e, m')) :
    m.drain = (e :: m'.drain.1, m'.drain.2) := by
  rw [drain]
  split
  · next h' =>
    rw [h] at h'
    cases h'
  · next h' =>
    rw [h] at h'
    cases h'
    rfl

/-- Draining is a matter of the first poll. -/
theorem drain_congr {m n : Machine} (h : m.poll = n.poll) : m.drain = n.drain := by
  cases hp : n.poll with
  | mk e n' =>
      cases e with
      | none => rw [drain_of_none (h.trans hp), drain_of_none hp]
      | some e => rw [drain_of_some (h.trans hp), drain_of_some hp]

/-- What holds once no event is left, and holds before an event if it
holds after it, holds of draining. -/
theorem drain_induction {P : Machine → List Event → Machine → Prop}
    (quiet : ∀ m m', m.poll = (none, m') → P m [] m')
    (event : ∀ m m' e, m.poll = (some e, m') → P m' m'.drain.1 m'.drain.2 →
      P m (e :: m'.drain.1) m'.drain.2)
    (m : Machine) : P m m.drain.1 m.drain.2 := by
  induction hw : m.work using Nat.strongRecOn generalizing m with
  | ind w ih =>
      cases hp : m.poll with
      | mk e m' =>
          cases e with
          | none =>
              rw [drain_of_none hp]
              exact quiet m m' hp
          | some e =>
              rw [drain_of_some hp]
              exact event m m' e hp (ih m'.work (hw ▸ work_poll_lt hp) m' rfl)

/-- Draining keeps the receiving half valid and the rest as it was. -/
theorem drain_frame {m : Machine} (hv : m.Valid) : m.drain.2.Valid ∧ SameFrame m m.drain.2 := by
  refine drain_induction (P := fun m _ last => m.Valid → last.Valid ∧ SameFrame m last) ?_ ?_ m hv
  · intro m m' hp hv
    have hv' := hv.poll
    have hf := poll_frame hv
    rw [hp] at hv' hf
    exact ⟨hv', hf⟩
  · intro m m' e hp ih hv
    have hv' := hv.poll
    have hf := poll_frame hv
    rw [hp] at hv' hf
    exact ⟨(ih hv').1, hf.trans (ih hv').2⟩

/-- Draining neither looks at what is owed to earlier requests nor
changes it. -/
theorem drain_owing {m : Machine} (hv : m.Valid) (xs : List Exchange) :
    (m.owing xs).drain = (m.drain.1, m.drain.2.owing xs) := by
  refine drain_induction
    (P := fun m es last => m.Valid → (m.owing xs).drain = (es, last.owing xs)) ?_ ?_ m hv
  · intro m m' hp hv
    have ho := poll_owing hv xs
    rw [hp] at ho
    exact drain_of_none ho
  · intro m m' e hp ih hv
    have ho := poll_owing hv xs
    have hv' := hv.poll
    rw [hp] at ho hv'
    rw [drain_of_some ho, ih hv']

end WireHttp.Machine
