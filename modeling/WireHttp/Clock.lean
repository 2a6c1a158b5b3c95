/-
Time, in milliseconds from some start. Timers belong to the runtime that a
connection is served by. All that is asked of them is the instant at which
one is due, and a `Clock` is whatever gives it; what is said of timers is
said of every clock, and where it matters that a timer takes as long as it
is meant to, that is asked of the clock (`Clock.Keeps`).
-/

namespace WireHttp

/-- The timers of a runtime. -/
structure Clock where
  /-- The instant at which a timer is due that is set at an instant, to take
  this long. -/
  due : Nat → Nat → Nat

namespace Clock

/-- Timers that are meant to take this long are due when so much time has
passed, and no sooner or later. -/
def Keeps (clock : Clock) (duration : Nat) : Prop :=
  ∀ now, clock.due now duration = now + duration

/-- How far ahead the timers of the usual clock can be set: thirty years of
365 days each. -/
def horizon : Nat := 30 * 365 * 24 * 60 * 60 * 1000

/-- The clock of a runtime that can be run: a timer that is meant to take
longer than to the horizon is due there. -/
def usual : Clock where
  due now duration := now + min duration horizon

theorem keeps_usual {duration : Nat} (h : duration ≤ horizon) : usual.Keeps duration := by
  intro now
  show now + min duration horizon = now + duration
  rw [Nat.min_eq_left h]

end Clock

end WireHttp
