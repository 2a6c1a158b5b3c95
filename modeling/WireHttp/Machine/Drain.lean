/-
Draining a machine: polling it until no event is left. It ends because
every event uses up bytes or brings the machine nearer to the end of the
request it is in, which `work` measures.
-/
import WireHttp.Machine.Inbound

namespace WireHttp

/-- How many events a phase can lead to without using up a byte. -/
def Phase.rank : Phase → Nat
  | closing => 0
  | idle | readingHead _ | ended => 1
  | complete _ => 2
  | readingBody _ _ => 3

namespace Machine

/-- A bound on the events that the machine can still produce. -/
def work (m : Machine) : Nat :=
  m.buffer.length + m.phase.rank

theorem length_skipBlankLines_le (bs : Bytes) : (skipBlankLines bs).length ≤ bs.length := by
  fun_induction skipBlankLines bs with
  | case1 bs ih => simp only [List.length_cons]; omega
  | case2 => exact Nat.le_refl _

theorem work_enterClosing (m : Machine) : m.enterClosing.work = 0 := rfl

theorem work_starve_lt {m m' : Machine} {e : Event} (hp : 0 < m.phase.rank)
    (h : m.starve = (some e, m')) : m'.work < m.work := by
  unfold starve at h
  split at h
  · obtain ⟨-, rfl⟩ := Prod.mk.inj h
    rw [work_enterClosing]
    exact Nat.lt_of_lt_of_le hp (Nat.le_add_left _ _)
  · cases h

theorem work_acceptHead_lt {m : Machine} {head : Head} {consumed : Nat}
    (h : Head.read m.limits m.buffer = .ok (head, consumed)) :
    (m.acceptHead head consumed).work < m.buffer.length := by
  have hc := Head.consumed_of_read h
  simp only [Delimiter.mark, List.length_cons, List.length_nil] at hc
  have hr : (m.acceptHead head consumed).phase.rank ≤ 3 := by
    unfold acceptHead; dsimp only; split <;> simp [Phase.rank]
  have hb : (m.acceptHead head consumed).buffer.length = m.buffer.length - consumed := by
    simp [acceptHead]
  unfold work
  omega

theorem work_pollHead_lt {m m' : Machine} {scanned : Nat} {e : Event}
    (h : m.pollHead scanned = (some e, m')) : m'.work < m.buffer.length + 1 := by
  unfold pollHead at h
  split at h
  · exact work_starve_lt (by simp [Phase.rank]) h
  · split at h
    · next hd _ hr =>
      obtain ⟨-, rfl⟩ := Prod.mk.inj h
      exact Nat.lt_succ_of_lt (work_acceptHead_lt hr)
    · cases h
    · obtain ⟨-, rfl⟩ := Prod.mk.inj h
      exact Nat.succ_pos _

theorem work_pollIdle_lt {m m' : Machine} {e : Event} (h : m.pollIdle = (some e, m')) :
    m'.work < m.buffer.length + 1 := by
  have hs := length_skipBlankLines_le m.buffer
  unfold pollIdle at h
  dsimp only at h
  split at h
  · exact Nat.lt_of_lt_of_le (work_starve_lt (by simp [Phase.rank]) h) (Nat.succ_le_succ hs)
  · exact Nat.lt_of_lt_of_le (work_pollHead_lt h) (Nat.succ_le_succ hs)

theorem work_pollBody_lt {m m' : Machine} {x : Exchange} {remaining : Nat} {e : Event}
    (hp : m.phase = .readingBody x remaining) (h : m.pollBody x remaining = (some e, m')) :
    m'.work < m.work := by
  unfold pollBody at h
  split at h
  · exact work_starve_lt (by simp [hp, Phase.rank]) h
  · next hb =>
    obtain ⟨-, rfl⟩ := Prod.mk.inj h
    have hpos := List.length_pos_iff.2 hb
    simp only [work, hp, List.length_drop, List.length_take]
    split
    · simp only [Phase.rank]; omega
    · simp only [Phase.rank]; omega

/-- Every event is progress. -/
theorem work_poll_lt {m m' : Machine} {e : Event} (h : m.poll = (some e, m')) :
    m'.work < m.work := by
  unfold poll at h
  split at h
  · next hp => simpa [work, hp, Phase.rank] using work_pollIdle_lt h
  · next hp => simpa [work, hp, Phase.rank] using work_pollHead_lt h
  · next hp => exact work_pollBody_lt hp h
  · next hp =>
    obtain ⟨-, rfl⟩ := Prod.mk.inj h
    simp [work, hp, Phase.rank]
  · next hp =>
    split at h
    · cases h
    · simpa [work, hp, Phase.rank] using work_pollIdle_lt h
  · cases h

/-- All events that the buffered bytes lead to, and the machine that
waits for more. -/
def drain (m : Machine) : List Event × Machine :=
  match h : m.poll with
  | (none, m') => ([], m')
  | (some e, m') =>
    have : m'.work < m.work := work_poll_lt h
    let (es, last) := drain m'
    (e :: es, last)
termination_by m.work

end Machine

end WireHttp
