/-
No stale timer fires. A timer may be armed, cancelled and waited for in any
order, with any durations, while time passes; waits may have a limit or
none, and may be given up. `TimerRun` is such a history with the timer it
has led to, and what is said of every list of calls is said of every use of
the timer.

The events of a history settle which arming is live: the latest, unless it
has been cancelled or has fired since (`Standing`). The timer holds just
that arming, due when its duration is over (`Sound.live`), and a wait that
is not given up ends with it. So what fires is never an arming that was
replaced, cancelled or used up. Nor can its token have fired before: it
would then have been armed before, and tokens grow from one arming to the
next.

Two things are asked for, and both only of what the calls do. The clock
keeps the durations that the timer is armed for, so that an arming is due
when its duration is over; until the end the proof says no more than that
it is due when the clock says. And the armings are fewer than a word can
count, or tokens would begin again (`Sound.numbered`).
-/
import Mathlib.Data.List.Basic
import WireHttp.IdleTimer

namespace WireHttp

-- ======================================================== histories

/-- What can be done with a timer. -/
inductive TimerCall
  | arm (duration : Nat)
  | cancel
  /-- Waits until the timer fires, but no longer than the limit if there is
  one. -/
  | wait (limit? : Option Nat)
  /-- Time passes. A wait that is dropped is no more than this, even if the
  timer comes due meanwhile. -/
  | pass (milliseconds : Nat)
  deriving DecidableEq, Repr

/-- What comes of it. -/
inductive TimerEvent
  | armed (token instant duration : Nat)
  | cancelled
  | fired (token instant : Nat)
  /-- A wait came to its limit. -/
  | gaveUp
  deriving DecidableEq, Repr

/-- The token of an arming. -/
def TimerEvent.armed? : TimerEvent → Option Nat
  | armed token _ _ => some token
  | cancelled | fired _ _ | gaveUp => none

/-- The duration of an arming. -/
def TimerEvent.duration? : TimerEvent → Option Nat
  | armed _ _ duration => some duration
  | cancelled | fired _ _ | gaveUp => none

/-- The duration that a timer is to be armed for. -/
def TimerCall.duration? : TimerCall → Option Nat
  | arm duration => some duration
  | cancel | wait _ | pass _ => none

/-- A timer in use. -/
structure TimerRun where
  /-- The current instant. -/
  now : Nat := 0
  timer : IdleTimer := {}
  /-- What has come of the calls so far, first to last. -/
  past : List TimerEvent := []
  deriving DecidableEq, Repr

namespace TimerRun

/-- A wait is over. -/
def afterWait (r : TimerRun) (w : IdleTimer.Wait) : TimerRun where
  now := w.now
  timer := w.timer
  past := r.past ++
    [match w.fired? with
      | some token => .fired token w.now
      | none => .gaveUp]

/-- The run after one more call; `none` if the call never comes to an end,
as a wait without a limit does if the timer is not armed. -/
def call (clock : Clock) (r : TimerRun) : TimerCall → Option TimerRun
  | .arm duration =>
    let timer := r.timer.arm r.now duration clock
    some { r with timer, past := r.past ++ [.armed timer.generation r.now duration] }
  | .cancel => some { r with timer := r.timer.cancel, past := r.past ++ [.cancelled] }
  | .wait (some limit) => some (r.afterWait (r.timer.wait r.now limit))
  | .wait none =>
    r.timer.deadline?.map fun deadline =>
      r.afterWait (r.timer.wait r.now (deadline - r.now))
  | .pass ms => some { r with now := r.now + ms }

/-- The run after calls that come one after the other. -/
def calls (clock : Clock) (r : TimerRun) : List TimerCall → Option TimerRun
  | [] => some r
  | c :: cs => (r.call clock c).bind fun r => r.calls clock cs

-- ================================================== what a call can do

/-- What a call can do. -/
inductive Steps (clock : Clock) (r : TimerRun) : TimerRun → Prop
  | armed (duration : Nat) :
      Steps clock r
        { r with
          timer := r.timer.arm r.now duration clock
          past := r.past ++ [.armed r.timer.nextToken r.now duration] }
  | cancelled : Steps clock r { r with timer := r.timer.cancel, past := r.past ++ [.cancelled] }
  | fired (arming : Arming) (now : Nat) : r.timer.armed? = some arming → arming.deadline ≤ now →
      Steps clock r { now, timer := r.timer.cancel, past := r.past ++ [.fired arming.token now] }
  | gaveUp (now : Nat) : Steps clock r { r with now, past := r.past ++ [.gaveUp] }
  | passed (now : Nat) : Steps clock r { r with now }

variable {clock : Clock} {r r' : TimerRun}

/-- A wait ends with the live arming at its deadline or later, or it is
given up and leaves the timer alone. -/
theorem steps_wait (r : TimerRun) (limit : Nat) :
    Steps clock r (r.afterWait (r.timer.wait r.now limit)) := by
  unfold IdleTimer.wait
  cases hf : r.timer.fire? (r.now + limit) with
  | none => exact .gaveUp (r.now + limit)
  | some result =>
      obtain ⟨token, timer⟩ := result
      obtain ⟨arming, harmed, -, rfl, rfl⟩ := IdleTimer.fire?_eq_some_iff.1 hf
      have hdeadline : r.timer.deadline?.getD r.now = arming.deadline := by
        unfold IdleTimer.deadline?
        rw [harmed]
        rfl
      dsimp only
      rw [hdeadline]
      exact .fired arming _ harmed (Nat.le_max_right _ _)

theorem steps_call {c : TimerCall} (h : r.call clock c = some r') : Steps clock r r' := by
  cases c with
  | arm duration =>
      cases h
      exact .armed duration
  | cancel =>
      cases h
      exact .cancelled
  | wait limit? =>
      cases limit? with
      | some limit =>
          cases h
          exact steps_wait r limit
      | none =>
          obtain ⟨deadline, -, rfl⟩ := Option.map_eq_some_iff.1 h
          exact steps_wait r _
  | pass ms =>
      cases h
      exact .passed (r.now + ms)

/-- What holds of a run and is kept by a step holds after all calls. -/
theorem calls_induction {P : TimerRun → Prop}
    (step : ∀ r r', P r → Steps clock r r' → P r') {cs : List TimerCall} (h : P r)
    (hcs : r.calls clock cs = some r') : P r' := by
  induction cs generalizing r with
  | nil =>
      cases hcs
      exact h
  | cons c cs ih =>
      obtain ⟨next, hc, hrest⟩ := Option.bind_eq_some_iff.1 hcs
      exact ih (step r next h (steps_call hc)) hrest

/-- The timer is armed for the durations that the calls ask for. -/
theorem durations_calls {cs : List TimerCall} (hcs : r.calls clock cs = some r') :
    r'.past.filterMap TimerEvent.duration?
      = r.past.filterMap TimerEvent.duration? ++ cs.filterMap TimerCall.duration? := by
  induction cs generalizing r with
  | nil =>
      cases hcs
      exact (List.append_nil _).symm
  | cons c cs ih =>
      obtain ⟨next, hc, hrest⟩ := Option.bind_eq_some_iff.1 hcs
      have hfirst : next.past.filterMap TimerEvent.duration?
          = r.past.filterMap TimerEvent.duration? ++ c.duration?.toList := by
        cases c with
        | arm duration =>
            cases hc
            exact List.filterMap_append
        | wait limit? =>
            have none_new (w : IdleTimer.Wait) :
                (r.afterWait w).past.filterMap TimerEvent.duration?
                  = r.past.filterMap TimerEvent.duration? ++ [] := by
              unfold afterWait
              rw [List.filterMap_append]
              cases w.fired? <;> rfl
            cases limit? with
            | some limit =>
                cases hc
                exact none_new _
            | none =>
                obtain ⟨deadline, -, rfl⟩ := Option.map_eq_some_iff.1 hc
                exact none_new _
        | cancel =>
            cases hc
            exact List.filterMap_append
        | pass ms =>
            cases hc
            exact (List.append_nil _).symm
      rw [ih hrest, hfirst, List.append_assoc]
      cases hd : c.duration? with
      | none => rw [List.filterMap_cons_none hd]; rfl
      | some duration => rw [List.filterMap_cons_some hd]; rfl

-- ==================================================== the live arming

/-- An arming that is the latest, and has neither been cancelled nor fired
since. -/
def Standing (past : List TimerEvent) (token instant duration : Nat) : Prop :=
  ∃ before since, past = before ++ .armed token instant duration :: since ∧
    ∀ e ∈ since, e = .gaveUp

/-- A place in a list with one more entry is the end of it or was there
before. -/
private theorem eq_of_concat {past before rest : List TimerEvent} {e f : TimerEvent}
    (h : past ++ [e] = before ++ f :: rest) :
    past = before ∧ e = f ∧ rest = [] ∨
      ∃ front, past = before ++ f :: front ∧ rest = front ++ [e] := by
  rcases List.eq_nil_or_concat' rest with rfl | ⟨front, last, rfl⟩
  · obtain ⟨hpast, hlast⟩ := List.append_inj' h rfl
    exact Or.inl ⟨hpast, List.singleton_inj.1 hlast, rfl⟩
  · rw [← List.cons_append, ← List.append_assoc] at h
    obtain ⟨hpast, hlast⟩ := List.append_inj' h rfl
    exact Or.inr ⟨front, hpast, by rw [List.singleton_inj.1 hlast]⟩

/-- An event starts an arming, or keeps the one there was if it is only
that a wait was given up. -/
theorem standing_concat {past : List TimerEvent} {e : TimerEvent} {token instant duration : Nat} :
    Standing (past ++ [e]) token instant duration ↔
      e = .armed token instant duration ∨
        e = .gaveUp ∧ Standing past token instant duration := by
  constructor
  · intro h
    obtain ⟨before, since, heq, hsince⟩ := h
    rcases eq_of_concat heq with ⟨-, he, -⟩ | ⟨front, hpast, rfl⟩
    · exact Or.inl he
    · refine Or.inr ⟨hsince e (by simp), before, front, hpast, ?_⟩
      exact fun f hf => hsince f (List.mem_append_left _ hf)
  · intro h
    rcases h with rfl | ⟨rfl, before, since, rfl, hsince⟩
    · exact ⟨past, [], rfl, nofun⟩
    · refine ⟨before, since ++ [.gaveUp], by simp, ?_⟩
      intro f hf
      exact (List.mem_append.1 hf).elim (hsince f) List.mem_singleton.1

theorem Standing.mem {past : List TimerEvent} {token instant duration : Nat}
    (h : Standing past token instant duration) : .armed token instant duration ∈ past := by
  obtain ⟨before, since, rfl, -⟩ := h
  exact List.mem_append_right _ List.mem_cons_self

-- ======================================================= the invariant

/-- The tokens of all armings, first to last. -/
def tokens (past : List TimerEvent) : List Nat :=
  past.filterMap TimerEvent.armed?

/-- What holds of a timer in use. -/
structure Sound (clock : Clock) (r : TimerRun) : Prop where
  /-- Tokens are numbers in the order of the armings, in a word. -/
  numbered : tokens r.past
    = (List.range (tokens r.past).length).map fun i => (i + 1) % Text.Decimal.wordSize
  counted : r.timer.generation = (tokens r.past).length % Text.Decimal.wordSize
  /-- The timer holds the arming that stands. -/
  live : ∀ token deadline, r.timer.armed? = some ⟨token, deadline⟩ ↔
    ∃ instant duration, Standing r.past token instant duration ∧
      deadline = clock.due instant duration
  /-- What has fired stood then, and was due. -/
  fired : ∀ before token now rest, r.past = before ++ .fired token now :: rest →
    ∃ instant duration, Standing before token instant duration ∧
      clock.due instant duration ≤ now

/-- A timer that has not been used. -/
theorem Sound.start (clock : Clock) : Sound clock {} := by
  refine ⟨rfl, rfl, ?_, ?_⟩
  · intro token deadline
    constructor
    · nofun
    · intro h
      obtain ⟨instant, duration, hstanding, -⟩ := h
      cases hstanding.mem
  · intro before token now rest h
    exact absurd h (by simp)

/-- An event that arms nothing is no matter to the tokens. -/
theorem tokens_concat (past : List TimerEvent) {e : TimerEvent} (h : e.armed? = none) :
    tokens (past ++ [e]) = tokens past := by
  unfold tokens
  rw [List.filterMap_append, List.filterMap_cons_none h, List.filterMap_nil, List.append_nil]

theorem tokens_concat_armed (past : List TimerEvent) (token instant duration : Nat) :
    tokens (past ++ [.armed token instant duration]) = tokens past ++ [token] :=
  List.filterMap_append

/-- What has fired is what had, unless it was just now. -/
private theorem Sound.fired_concat (h : Sound clock r) {e : TimerEvent}
    (he : ∀ token now, e = .fired token now → ∃ instant duration,
      Standing r.past token instant duration ∧ clock.due instant duration ≤ now) :
    ∀ before token now rest, r.past ++ [e] = before ++ .fired token now :: rest →
      ∃ instant duration, Standing before token instant duration ∧
        clock.due instant duration ≤ now := by
  intro before token now rest heq
  rcases eq_of_concat heq with ⟨rfl, hlast, -⟩ | ⟨front, hpast, -⟩
  · exact he token now hlast
  · exact h.fired before token now front hpast

/-- The next arming has the next number. -/
private theorem Sound.nextToken_eq (h : Sound clock r) :
    r.timer.nextToken = ((tokens r.past).length + 1) % Text.Decimal.wordSize := by
  unfold IdleTimer.nextToken
  rw [h.counted, Nat.mod_add_mod]

/-- Every step of a timer keeps it sound. -/
theorem Sound.step (h : Sound clock r) (hs : Steps clock r r') : Sound clock r' := by
  cases hs with
  | armed duration =>
      have hlength : (tokens r.past ++ [r.timer.nextToken]).length
          = (tokens r.past).length + 1 :=
        List.length_append
      refine ⟨?_, ?_, ?_, h.fired_concat nofun⟩
      · dsimp only
        rw [tokens_concat_armed, hlength, List.range_succ, List.map_append, ← h.numbered,
          h.nextToken_eq]
        rfl
      · dsimp only
        rw [tokens_concat_armed, hlength]
        exact h.nextToken_eq
      · intro token deadline
        simp only [standing_concat, IdleTimer.arm]
        constructor
        · intro heq
          cases heq
          exact ⟨r.now, duration, Or.inl rfl, rfl⟩
        · intro hstanding
          obtain ⟨instant, length, heq | ⟨heq, -⟩, rfl⟩ := hstanding
          · cases heq
            rfl
          · cases heq
  | cancelled =>
      refine ⟨?_, ?_, ?_, h.fired_concat nofun⟩
      · rw [tokens_concat _ rfl]
        exact h.numbered
      · rw [tokens_concat _ rfl]
        exact h.counted
      · intro token deadline
        simp [standing_concat, IdleTimer.cancel]
  | fired arming now harmed hdue =>
      obtain ⟨instant, duration, hstanding, hdeadline⟩ := (h.live _ _).1 harmed
      refine ⟨?_, ?_, ?_, h.fired_concat ?_⟩
      · rw [tokens_concat _ rfl]
        exact h.numbered
      · rw [tokens_concat _ rfl]
        exact h.counted
      · intro token deadline
        simp [standing_concat, IdleTimer.cancel]
      · intro token instant' heq
        cases heq
        exact ⟨instant, duration, hstanding, hdeadline ▸ hdue⟩
  | gaveUp now =>
      refine ⟨?_, ?_, ?_, h.fired_concat nofun⟩
      · rw [tokens_concat _ rfl]
        exact h.numbered
      · rw [tokens_concat _ rfl]
        exact h.counted
      · intro token deadline
        rw [h.live]
        simp [standing_concat]
  | passed now => exact ⟨h.numbered, h.counted, h.live, h.fired⟩

/-- As long as a word can count the armings, tokens grow. -/
theorem Sound.increasing (h : Sound clock r)
    (hfew : (tokens r.past).length < Text.Decimal.wordSize) :
    (tokens r.past).Pairwise (· < ·) := by
  have hmap : tokens r.past = (List.range (tokens r.past).length).map (· + 1) := by
    rw [h.numbered, List.length_map, List.length_range]
    refine List.map_congr_left fun i hi => ?_
    exact Nat.mod_eq_of_lt (Nat.lt_of_le_of_lt (List.mem_range.1 hi) hfew)
  rw [hmap, List.pairwise_map]
  exact List.pairwise_lt_range.imp Nat.succ_lt_succ

/-- No token fires twice: it would have been armed twice. -/
theorem Sound.not_fired_before (h : Sound clock r)
    (hincreasing : (tokens r.past).Pairwise (· < ·)) {before rest : List TimerEvent}
    {token now : Nat} (hpast : r.past = before ++ .fired token now :: rest) (earlier : Nat) :
    .fired token earlier ∉ before := by
  intro hmem
  obtain ⟨instant, duration, ⟨front, since, rfl, hsince⟩, -⟩ := h.fired _ _ _ _ hpast
  rcases List.mem_append.1 hmem with hfront | hafter
  · -- it was armed before that firing, and again after it
    obtain ⟨first, second, rfl⟩ := List.append_of_mem hfront
    obtain ⟨instant', duration', hstanding, -⟩ :=
      h.fired first token earlier _ (by rw [hpast, List.append_assoc, List.append_assoc]; rfl)
    unfold tokens at hincreasing
    rw [hpast, List.append_assoc, List.append_assoc, List.filterMap_append,
      List.pairwise_append] at hincreasing
    refine Nat.lt_irrefl token (hincreasing.2.2 token ?_ token ?_)
    · exact List.mem_filterMap.2 ⟨_, hstanding.mem, rfl⟩
    · exact List.mem_filterMap.2 ⟨.armed token instant duration, by simp, rfl⟩
  · rcases List.mem_cons.1 hafter with heq | hlater
    · cases heq
    · cases hsince _ hlater

/-- How a timer stands that has been used. -/
structure Lawful (clock : Clock) (r : TimerRun) : Prop where
  /-- Tokens grow from one arming to the next, so none is used twice. -/
  increasing : (tokens r.past).Pairwise (· < ·)
  /-- No more than one arming is live: the latest, as long as it has neither
  been cancelled nor fired. It is due when its duration is over. -/
  live : ∀ token deadline, r.timer.armed? = some ⟨token, deadline⟩ ↔
    ∃ instant duration, Standing r.past token instant duration ∧ deadline = instant + duration
  /-- Whatever has fired was live then, was due, and had not fired before. -/
  fired : ∀ before token now rest, r.past = before ++ .fired token now :: rest →
    (∃ instant duration, Standing before token instant duration ∧ instant + duration ≤ now) ∧
    ∀ earlier, .fired token earlier ∉ before
  /-- A wait that is given up, or dropped, leaves the timer as it is. -/
  abandoned : ∀ c r', r.call clock c = some r' →
    r'.past = r.past ∨ r'.past = r.past ++ [.gaveUp] → r'.timer = r.timer

/-- By a clock that keeps what the timer has been armed for, an arming that
stood is due when its duration is over. -/
theorem due_of_standing {past : List TimerEvent} {token instant duration : Nat}
    (hkeeps : ∀ d ∈ past.filterMap TimerEvent.duration?, clock.Keeps d)
    (h : Standing past token instant duration) :
    clock.due instant duration = instant + duration :=
  hkeeps duration (List.mem_filterMap.2 ⟨_, h.mem, rfl⟩) instant

/-- There are as many tokens as durations. -/
theorem length_tokens (past : List TimerEvent) :
    (tokens past).length = (past.filterMap TimerEvent.duration?).length := by
  induction past with
  | nil => rfl
  | cons e past ih =>
      cases e with
      | armed => exact congrArg (· + 1) ih
      | _ => exact ih

end TimerRun

/-- However a timer is used, only the latest arming fires, once, when it is
due, and not if it has been cancelled: by a clock that keeps the durations
that the timer is armed for, as timers are documented to do, and for as
many armings as a word can count. -/
theorem fires_no_stale_arming {clock : Clock} {cs : List TimerCall} {r : TimerRun}
    (hkeeps : ∀ duration ∈ cs.filterMap TimerCall.duration?, clock.Keeps duration)
    (hfew : (cs.filterMap TimerCall.duration?).length < Text.Decimal.wordSize)
    (h : TimerRun.calls clock {} cs = some r) : r.Lawful clock := by
  have hsound : r.Sound clock :=
    TimerRun.calls_induction (fun _ _ hr hs => hr.step hs) (.start clock) h
  have hdurations : r.past.filterMap TimerEvent.duration? = cs.filterMap TimerCall.duration? :=
    TimerRun.durations_calls h
  rw [← hdurations] at hkeeps hfew
  rw [← TimerRun.length_tokens] at hfew
  have hincreasing := hsound.increasing hfew
  refine ⟨hincreasing, ?_, ?_, ?_⟩
  · intro token deadline
    rw [hsound.live]
    refine exists_congr fun instant => exists_congr fun duration => and_congr_right fun hs => ?_
    rw [TimerRun.due_of_standing hkeeps hs]
  · intro before token now rest hpast
    refine ⟨?_, hsound.not_fired_before hincreasing hpast⟩
    obtain ⟨instant, duration, hs, hdue⟩ := hsound.fired before token now rest hpast
    have hbefore : ∀ d ∈ before.filterMap TimerEvent.duration?, clock.Keeps d := by
      intro d hd
      apply hkeeps
      rw [hpast, List.filterMap_append]
      exact List.mem_append_left _ hd
    rw [TimerRun.due_of_standing hbefore hs] at hdue
    exact ⟨instant, duration, hs, hdue⟩
  · intro c r' hcall hquiet
    cases TimerRun.steps_call hcall with
    | armed | cancelled | fired => simp at hquiet
    | gaveUp | passed => rfl

/-- A timer is armed anew for a shorter time, comes due while no one waits,
and fires when it is waited for; a third arming is cancelled, and a fourth
waited for without a limit. -/
theorem fires_no_stale_arming_overdue :
    ∃ (cs : List TimerCall) (r : TimerRun), TimerRun.calls .usual {} cs = some r ∧
      r.past = [.armed 1 0 1000, .armed 2 3 5, .gaveUp, .fired 2 15, .armed 3 15 7, .cancelled,
        .gaveUp, .armed 4 115 4, .fired 4 119] ∧ r.Lawful .usual := by
  obtain ⟨cs, hcs⟩ : ∃ cs : List TimerCall, cs =
      [.arm 1000, .pass 3, .arm 5, .wait (some 2), .pass 10, .wait (some 0), .arm 7, .cancel,
        .wait (some 100), .arm 4, .wait none] := ⟨_, rfl⟩
  have hrun : (TimerRun.calls .usual {} cs).map (·.past) =
      some [.armed 1 0 1000, .armed 2 3 5, .gaveUp, .fired 2 15, .armed 3 15 7, .cancelled,
        .gaveUp, .armed 4 115 4, .fired 4 119] := by
    rw [hcs]
    decide +kernel
  have hdurations : cs.filterMap TimerCall.duration? = [1000, 5, 7, 4] := by
    rw [hcs]
    rfl
  obtain ⟨r, hr, hpast⟩ := Option.map_eq_some_iff.1 hrun
  refine ⟨cs, r, hr, hpast, fires_no_stale_arming ?_ ?_ hr⟩
  · rw [hdurations]
    intro duration hd
    apply Clock.keeps_usual
    revert duration
    decide
  · rw [hdurations]
    decide

end WireHttp
