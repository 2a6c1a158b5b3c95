/-
Two readings of the bytes between two requests. A machine that is asked
whether a message has begun looks for a byte that belongs to no line end;
a poll skips the blank lines at the front, lets a carriage return wait for
its line feed, and takes whatever else there is for the front of a head.

What a poll takes for blank lines is reported as no message. The converse
fails for line ends that are not whole: a line feed with no carriage
return before it, or two carriage returns in a row, are no blank line, and
the report, which looks at single bytes, does not see it. `StrayLineEnds`
are these buffers, and the two readings agree on all others
(`polls_blank_iff`).
-/
import WireHttp.Proofs.Machine.Pipeline

namespace WireHttp

-- ========================================================== line ends

/-- Nothing but blank lines, of which the last may lack its line feed. -/
def OnlyBlankLines (bs : Bytes) : Prop :=
  ∃ n cr, (cr = [] ∨ cr = [13]) ∧ bs = blankLines n ++ cr

/-- Nothing but carriage returns and line feeds, and after the blank lines
at the front they make up no other. -/
def StrayLineEnds (bs : Bytes) : Prop :=
  ∃ n rest, bs = blankLines n ++ rest ∧ (∀ b ∈ rest, b = 13 ∨ b = 10) ∧
    ([10] <+: rest ∨ [13, 13] <+: rest)

theorem eq_of_mem_blankLines {n : Nat} {b : UInt8} (h : b ∈ blankLines n) : b = 13 ∨ b = 10 := by
  obtain ⟨line, hline, hb⟩ := List.mem_flatten.1 h
  rw [List.eq_of_mem_replicate hline] at hb
  simpa using hb

/-- What is skipped are blank lines. -/
theorem exists_blankLines (bs : Bytes) : ∃ n, bs = blankLines n ++ Machine.skipBlankLines bs := by
  fun_induction Machine.skipBlankLines bs with
  | case1 bs ih =>
      obtain ⟨n, hn⟩ := ih
      exact ⟨n + 1, congrArg (fun rest => 13 :: 10 :: rest) hn⟩
  | case2 bs => exact ⟨0, rfl⟩

theorem onlyBlankLines_iff {bs : Bytes} :
    OnlyBlankLines bs ↔
      Machine.skipBlankLines bs = [] ∨ Machine.skipBlankLines bs = [13] := by
  constructor
  · intro h
    obtain ⟨n, cr, hcr, rfl⟩ := h
    rw [skipBlankLines_blankLines]
    rcases hcr with rfl | rfl
    · exact Or.inl rfl
    · exact Or.inr rfl
  · intro h
    obtain ⟨n, hn⟩ := exists_blankLines bs
    exact ⟨n, _, h, hn⟩

theorem OnlyBlankLines.eq_of_mem {bs : Bytes} (h : OnlyBlankLines bs) {b : UInt8} (hb : b ∈ bs) :
    b = 13 ∨ b = 10 := by
  obtain ⟨n, cr, hcr, rfl⟩ := h
  rcases List.mem_append.1 hb with hb | hb
  · exact eq_of_mem_blankLines hb
  · rcases hcr with rfl | rfl
    · cases hb
    · exact Or.inl (List.mem_singleton.1 hb)

/-- Where line ends stray a head begins. -/
theorem StrayLineEnds.not_onlyBlankLines {bs : Bytes} (h : StrayLineEnds bs) :
    ¬ OnlyBlankLines bs := by
  obtain ⟨n, rest, rfl, -, hrest⟩ := h
  rw [onlyBlankLines_iff, skipBlankLines_blankLines]
  rcases hrest with ⟨back, rfl⟩ | ⟨back, rfl⟩
  · rw [Machine.skipBlankLines_eq_self (by simp)]
    simp
  · rw [Machine.skipBlankLines_eq_self (by simp)]
    simp

/-- Carriage returns and line feeds make up blank lines, or stray. -/
theorem strayLineEnds_iff {bs : Bytes} :
    StrayLineEnds bs ↔ (∀ b ∈ bs, b = 13 ∨ b = 10) ∧ ¬ OnlyBlankLines bs := by
  constructor
  · intro h
    refine ⟨?_, h.not_onlyBlankLines⟩
    obtain ⟨n, rest, rfl, hends, -⟩ := h
    intro b hb
    exact (List.mem_append.1 hb).elim eq_of_mem_blankLines (hends b)
  · intro h
    obtain ⟨hends, hnot⟩ := h
    obtain ⟨n, hn⟩ := exists_blankLines bs
    rw [onlyBlankLines_iff] at hnot
    have hline := Machine.not_lineEnd_prefix_skipBlankLines bs
    have hrest : ∀ b ∈ Machine.skipBlankLines bs, b = 13 ∨ b = 10 := by
      intro b hb
      apply hends
      rw [hn]
      exact List.mem_append_right _ hb
    refine ⟨n, _, hn, hrest, ?_⟩
    -- what is left begins with neither a line end nor any other byte
    generalize Machine.skipBlankLines bs = rest at hnot hline hrest
    match rest with
    | [] => exact absurd (Or.inl rfl) hnot
    | [b] =>
        rcases hrest b List.mem_cons_self with rfl | rfl
        · exact absurd (Or.inr rfl) hnot
        · exact Or.inl List.prefix_rfl
    | b :: c :: back =>
        rcases hrest b List.mem_cons_self with rfl | rfl
        · rcases hrest c (List.mem_cons_of_mem _ List.mem_cons_self) with rfl | rfl
          · exact Or.inr ⟨back, rfl⟩
          · exact absurd ⟨back, rfl⟩ hline
        · exact Or.inl ⟨c :: back, rfl⟩

namespace Machine

variable {m : Machine}

-- ======================================================= the readings

/-- A poll finds nothing but blank lines to skip. -/
def PollsBlank (m : Machine) : Prop :=
  m.poll.1 = none ∧ m.poll.2.phase = .idle

/-- Between two requests it is single bytes that are looked at. -/
theorem hasPartialMessage_eq_false_iff (hp : m.phase = .idle) :
    m.hasPartialMessage = false ↔ ∀ b ∈ m.buffer, b = 13 ∨ b = 10 := by
  unfold hasPartialMessage
  rw [hp]
  simp only [List.any_eq_false, Bool.and_eq_true, bne_iff_ne, ne_eq, not_and, not_not]
  exact forall₂_congr fun b _ => or_iff_not_imp_left.symm

/-- What may become a blank line is no message. -/
theorem IsBlank.hasPartialMessage_eq (h : m.IsBlank) (hp : m.phase = .idle) :
    m.hasPartialMessage = false := by
  rw [hasPartialMessage_eq_false_iff hp]
  rcases h with hb | hb
  · rw [hb]
    nofun
  · rw [hb]
    exact fun b h => Or.inl (List.mem_singleton.1 h)

/-- Between two requests a poll brings nothing and begins nothing just if
there are only blank lines. -/
theorem pollsBlank_iff (hv : m.Valid) (hp : m.phase = .idle) (he : m.eof = false) :
    m.PollsBlank ↔ OnlyBlankLines m.buffer := by
  rw [onlyBlankLines_iff]
  constructor
  · intro h
    obtain ⟨hnone, hidle⟩ := h
    have hpoll := polls hv
    rw [hnone] at hpoll
    generalize m.poll.2 = n at hpoll hidle
    cases hpoll with
    | closed hc => cases hc.symm.trans hp
    | last hc => cases hc.symm.trans hp
    | waits hs =>
        cases hs with
        | between hb hblank => exact hblank
        | head => cases hidle
        | body x r hb => cases hb.symm.trans hp
  · intro hblank
    have hpoll := (Polls.waits (.between (Or.inl hp) hblank) he).poll_eq hv
    unfold PollsBlank
    rw [hpoll]
    exact ⟨rfl, rfl⟩

/-- A poll that finds only blank lines leaves an idle machine idle. -/
theorem isIdle_poll (hv : m.Valid) (hi : m.isIdle = true) (he : m.eof = false)
    (hb : OnlyBlankLines m.buffer) : m.poll.2.isIdle = true := by
  obtain ⟨hp, -, howed, hout⟩ := isIdle_iff.1 hi
  have hblank := onlyBlankLines_iff.1 hb
  rw [(Polls.waits (.between (Or.inl hp) hblank) he).poll_eq hv, isIdle_iff]
  exact ⟨rfl, IsBlank.hasPartialMessage_eq (m := m.skipped) hblank rfl, howed, hout⟩

/-- However a machine has been called, between two requests a poll finds
only blank lines just if no message is reported and no line ends stray. So
a poll without an event leaves an idle machine idle unless line ends
stray, and then it does not. -/
theorem polls_blank_iff (limits : Limits) (cs : List Call)
    (hp : ((start limits).calls cs).2.phase = .idle)
    (he : ((start limits).calls cs).2.eof = false) :
    let m := ((start limits).calls cs).2
    (m.PollsBlank ↔ m.hasPartialMessage = false ∧ ¬ StrayLineEnds m.buffer) ∧
      (m.PollsBlank ↔ OnlyBlankLines m.buffer) ∧
      (m.isIdle = true → m.poll.1 = none →
        (m.poll.2.isIdle = true ↔ ¬ StrayLineEnds m.buffer)) := by
  have hv := (Valid.start limits).calls cs
  dsimp only
  generalize ((start limits).calls cs).2 = m at hp he hv
  have hblank := pollsBlank_iff hv hp he
  have hreport := hasPartialMessage_eq_false_iff hp
  refine ⟨?_, hblank, ?_⟩
  · rw [hblank, hreport, strayLineEnds_iff, not_and, not_not]
    exact ⟨fun h => ⟨fun b hb => h.eq_of_mem hb, fun _ => h⟩, fun h => h.2 h.1⟩
  · intro hi hnone
    have hends := hreport.1 (isIdle_iff.1 hi).2.1
    constructor
    · intro hidle hstray
      exact hstray.not_onlyBlankLines (hblank.1 ⟨hnone, (isIdle_iff.1 hidle).1⟩)
    · intro hwhole
      rw [strayLineEnds_iff, not_and, not_not] at hwhole
      exact isIdle_poll hv hi he (hwhole hends)

/-- Two blank lines and half of a third are polled away. -/
theorem polls_blank_between :
    let m := ((start {}).calls [.receive [13, 10, 13, 10, 13]]).2
    m.phase = .idle ∧ m.eof = false ∧ m.hasPartialMessage = false ∧ m.PollsBlank ∧
      OnlyBlankLines m.buffer ∧ (m.poll.2.isIdle = true ↔ ¬ StrayLineEnds m.buffer) := by
  have hrun : ((start {}).calls [.receive [13, 10, 13, 10, 13]]).2.phase = .idle ∧
      ((start {}).calls [.receive [13, 10, 13, 10, 13]]).2.eof = false ∧
      ((start {}).calls [.receive [13, 10, 13, 10, 13]]).2.isIdle = true ∧
      ((start {}).calls [.receive [13, 10, 13, 10, 13]]).2.poll.1 = none := by
    decide +kernel
  obtain ⟨hp, he, hi, hnone⟩ := hrun
  obtain ⟨hreport, hblank, hidle⟩ := polls_blank_iff {} [.receive [13, 10, 13, 10, 13]] hp he
  have hpolled := hblank.2 ⟨2, [13], Or.inr rfl, rfl⟩
  exact ⟨hp, he, (hreport.1 hpolled).1, hpolled, hblank.1 hpolled, hidle hi hnone⟩

/-- A line feed alone is reported as no message, and the machine as idle;
but a poll takes it for the front of a head. -/
theorem line_feed_unreported :
    let m := ((start {}).calls [.receive [10]]).2
    m.phase = .idle ∧ m.eof = false ∧ m.hasPartialMessage = false ∧ m.isIdle = true ∧
      m.poll.1 = none ∧ m.poll.2.phase = .readingHead 1 ∧ m.poll.2.isIdle = false := by
  decide +kernel

end Machine

end WireHttp
