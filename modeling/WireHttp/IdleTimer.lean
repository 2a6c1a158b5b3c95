/-
The timer that closes an idle connection. At most one arming is live:
arming anew replaces it, cancelling drops it, and firing uses it up.
Armings are told apart by tokens, which are counted in a 64-bit word: the
first 2^64 - 1 armings of a timer have each a token of its own.
-/
import WireHttp.Clock
import WireHttp.Text.Decimal

namespace WireHttp

/-- One arming of the timer: its token and the instant it is due. -/
structure Arming where
  token : Nat
  deadline : Nat
  deriving DecidableEq, Repr

/-- A timer with at most one live arming. -/
structure IdleTimer where
  /-- The token of the latest arming, live or not; 0 before the first. -/
  generation : Nat := 0
  armed? : Option Arming := none
  deriving DecidableEq, Repr

namespace IdleTimer

/-- Whether an arming is live. -/
def isArmed (t : IdleTimer) : Bool :=
  t.armed?.isSome

/-- The token of the live arming. -/
def token? (t : IdleTimer) : Option Nat :=
  t.armed?.map (·.token)

/-- The instant at which the live arming is due. -/
def deadline? (t : IdleTimer) : Option Nat :=
  t.armed?.map (·.deadline)

/-- The token of the next arming. -/
def nextToken (t : IdleTimer) : Nat :=
  (t.generation + 1) % Text.Decimal.wordSize

/-- Arms the timer at instant `now`, to be due after `duration` by the
clock. -/
def arm (t : IdleTimer) (now duration : Nat) (clock : Clock := .usual) : IdleTimer where
  generation := t.nextToken
  armed? := some ⟨t.nextToken, clock.due now duration⟩

/-- Drops the live arming. -/
def cancel (t : IdleTimer) : IdleTimer :=
  { t with armed? := none }

/-- Fires the timer at instant `now` if it is due: its token, and the
timer without it. -/
def fire? (t : IdleTimer) (now : Nat) : Option (Nat × IdleTimer) :=
  match t.armed? with
  | some arming => if arming.deadline ≤ now then some (arming.token, t.cancel) else none
  | none => none

theorem fire?_eq_some_iff {t t' : IdleTimer} {now token : Nat} :
    t.fire? now = some (token, t') ↔
      ∃ arming, t.armed? = some arming ∧ arming.deadline ≤ now ∧ arming.token = token ∧
        t.cancel = t' := by
  unfold fire?
  cases t.armed? with
  | none => simp
  | some arming => simp

/-- What waiting for the timer came to. -/
structure Wait where
  /-- The token that fired; `none` if the wait was given up. -/
  fired? : Option Nat
  /-- The instant at which the wait ended. -/
  now : Nat
  timer : IdleTimer
  deriving DecidableEq, Repr

/-- Waits from instant `now` until the timer fires, but no longer than
`limit`. A timer that is due already fires at once, and one due at the
very end of the wait still fires. -/
def wait (t : IdleTimer) (now limit : Nat) : Wait :=
  match t.fire? (now + limit) with
  | some (token, timer) => ⟨some token, max now (t.deadline?.getD now), timer⟩
  | none => ⟨none, now + limit, t⟩

end IdleTimer

end WireHttp
