/-
What a connection does about a stimulus, said once. `AttendsWaiting` lists
it, guards included, for a connection that waits, and `AttendsWriting` for
one that writes, which attends only to the transport and the clock. A
connection that is over attends to nothing, nor does one that a panic has
unwound. `attends` says that nothing else is done, so that what holds of
every step is shown case by case, in the stage that the connection is in.

Most steps end with the same two moves. `Proceeds` lists what comes of
going back to waiting, and `afterWrite_cases` what comes of a response
that has been written.
-/
import WireHttp.Connection.Step

namespace WireHttp.Connection

-- ============================================================ the moves

/-- What comes of going back to waiting. -/
inductive Proceeds (c : Connection) : Connection → Prop
  | waits : c.jobs ≠ [] ∨ c.machine.wantsRead = true → Proceeds c { c with stage := .waiting }
  | refuses (e : HeadError) : c.jobs = [] → c.refused = some e →
      Proceeds c ({ c with refused := none }.beginWrite (.ofStatus e.status)
        (.endAnyway (.closed (.badRequest e))))
  | ends : c.jobs = [] → c.refused = none → c.machine.wantsRead = false →
      Proceeds c (c.endWith c.lastEnding)

theorem proceeds (c : Connection) : Proceeds c c.proceed := by
  unfold proceed isSettled
  split
  · next hjobs =>
    have hjobs := List.isEmpty_iff.1 hjobs
    split
    · next e hr => exact .refuses e hjobs hr
    · next hr =>
      split
      · next hw => exact .waits (Or.inr hw)
      · next hw => exact .ends hjobs hr (Bool.eq_false_iff.2 hw)
  · next hjobs => exact .waits (Or.inl fun h => hjobs (List.isEmpty_iff.2 h))

/-- With a response written a connection goes on, or it is over. -/
theorem afterWrite_cases (c : Connection) (next : AfterWrite) :
    next = .carryOn ∧ c.machine.isWriteClosed = false ∧
        c.afterWrite next = c.armIfIdle.proceed ∨
      ∃ ending, c.afterWrite next = c.endWith ending := by
  cases next with
  | carryOn =>
      cases hc : c.machine.isWriteClosed with
      | true => exact Or.inr ⟨_, if_pos hc⟩
      | false => exact Or.inl ⟨rfl, rfl, if_neg (Bool.eq_false_iff.1 hc)⟩
  | endWith ending => exact Or.inr ⟨ending, rfl⟩
  | endAnyway ending => exact Or.inr ⟨ending, rfl⟩

-- ============================================================ the lists

/-- What a connection that waits does about a stimulus. -/
inductive AttendsWaiting (c : Connection) : Stimulus → Connection → List Effect → Prop
  | read (data : Bytes) : c.canRead = true → data ≠ [] →
      AttendsWaiting c (.read data) (c.afterRead data) []
  | readEnd : c.canRead = true → AttendsWaiting c .readEnd c.afterReadEnd []
  | readFault (message : String) : c.canRead = true →
      AttendsWaiting c (.readFault message) (c.endWith (.failed (.transport message))) []
  | call {request : Request} {jobs : List Job} : c.hasAnswer = false →
      callFirst c.jobs = some (request, jobs) →
      AttendsWaiting c .call { c with jobs } [.called request]
  | callPanics {request : Request} {jobs : List Job} : c.hasAnswer = false →
      callFirst c.jobs = some (request, jobs) →
      AttendsWaiting c .callPanics { c with jobs, stage := .unwound } [.called request]
  | finish {place : Nat} {outcome : Outcome} {jobs : List Job} :
      finishAt c.jobs place outcome = some jobs →
      AttendsWaiting c (.finish place outcome) { c with jobs } []
  | answer {request : Request} {outcome : Outcome} {jobs : List Job} :
      c.jobs = ⟨request, .finished outcome⟩ :: jobs →
      AttendsWaiting c .answer ({ c with jobs }.respond outcome) []
  | expired {token : Nat} {timer : IdleTimer} :
      c.timer.fire? c.now = some (token, timer) → c.isIdle = true →
      AttendsWaiting c .timer ({ c with timer }.endWith (.closed .idleTimeout)) []
  | stale {token : Nat} {timer : IdleTimer} :
      c.timer.fire? c.now = some (token, timer) → c.isIdle = false →
      AttendsWaiting c .timer { c with timer }.proceed []
  | tick (ms : Nat) : AttendsWaiting c (.tick ms) { c with now := c.now + ms } []

/-- What a connection that writes does about a stimulus. -/
inductive AttendsWriting (c : Connection) (w : Writer) (next : AfterWrite) :
    Stimulus → Connection → List Effect → Prop
  | cut {reply : WriteReply} {e : WriteError} : w.offer reply = .error e →
      AttendsWriting c w next (.write reply)
        (c.endWith (next.onFailure (.transport e.message))) []
  | part {rest : Writer} {reply : WriteReply} {taken : Bytes} :
      w.offer reply = .ok (taken, rest) → rest.isDone = false →
      AttendsWriting c w next (.write reply) { c with stage := .writing rest next }
        [.wrote taken]
  | last {rest : Writer} {reply : WriteReply} {taken : Bytes} :
      w.offer reply = .ok (taken, rest) → rest.isDone = true →
      AttendsWriting c w next (.write reply) (c.afterWrite next) [.wrote taken]
  | tick (ms : Nat) : AttendsWriting c w next (.tick ms) { c with now := c.now + ms } []

variable {c c' : Connection} {s : Stimulus} {es : List Effect} {w : Writer} {next : AfterWrite}

theorem step_of_waiting (hw : c.stage = .waiting) (s : Stimulus) : c.step s = c.stepWaiting s := by
  unfold step
  rw [hw]

theorem attends_of_waiting (hw : c.stage = .waiting) (h : c.step s = some (c', es)) :
    AttendsWaiting c s c' es := by
  rw [step_of_waiting hw] at h
  cases s with
  | read data =>
      simp only [stepWaiting] at h
      split at h
      · next hc =>
        cases h
        exact .read data hc.1 hc.2
      · cases h
  | readEnd =>
      simp only [stepWaiting] at h
      split at h
      · next hc =>
        cases h
        exact .readEnd hc
      · cases h
  | readFault message =>
      simp only [stepWaiting] at h
      split at h
      · next hc =>
        cases h
        exact .readFault message hc
      · cases h
  | call =>
      simp only [stepWaiting] at h
      split at h
      · cases h
      · next ha =>
        obtain ⟨⟨request, jobs⟩, hcall, heq⟩ := Option.map_eq_some_iff.1 h
        cases heq
        exact .call (Bool.eq_false_iff.2 ha) hcall
  | callPanics =>
      simp only [stepWaiting] at h
      split at h
      · cases h
      · next ha =>
        obtain ⟨⟨request, jobs⟩, hcall, heq⟩ := Option.map_eq_some_iff.1 h
        cases heq
        exact .callPanics (Bool.eq_false_iff.2 ha) hcall
  | finish place outcome =>
      simp only [stepWaiting] at h
      obtain ⟨jobs, hfinish, heq⟩ := Option.map_eq_some_iff.1 h
      cases heq
      exact .finish hfinish
  | answer =>
      simp only [stepWaiting] at h
      split at h
      · next hjobs =>
        cases h
        exact .answer hjobs
      · cases h
  | timer =>
      simp only [stepWaiting] at h
      obtain ⟨⟨token, timer⟩, hfire, heq⟩ := Option.map_eq_some_iff.1 h
      cases heq
      split
      · next hi => exact .expired hfire hi
      · next hi => exact .stale hfire (Bool.eq_false_iff.2 hi)
  | write reply => cases h
  | tick ms =>
      cases h
      exact .tick ms

theorem attends_of_offer (c : Connection) (w : Writer) (next : AfterWrite) (reply : WriteReply) :
    AttendsWriting c w next (.write reply) (c.offer w next reply).1 (c.offer w next reply).2 := by
  unfold offer
  split
  · next e he => exact .cut he
  · next taken rest hok =>
    split
    · next hd => exact .last hok hd
    · next hd => exact .part hok (Bool.eq_false_iff.2 hd)

theorem attends_of_writing (hw : c.stage = .writing w next) (h : c.step s = some (c', es)) :
    AttendsWriting c w next s c' es := by
  cases s with
  | write reply =>
      have ha := attends_of_offer c w next reply
      unfold step at h
      rw [hw] at h
      rw [Option.some.inj h] at ha
      exact ha
  | tick ms =>
      have hs : c.step (.tick ms) = some ({ c with now := c.now + ms }, []) := by
        unfold step
        rw [hw]
      cases h.symm.trans hs
      exact .tick ms
  | _ =>
      unfold step at h
      rw [hw] at h
      cases h

theorem step_of_over {ending : Ending} (ho : c.stage = .over ending) (s : Stimulus) :
    c.step s = none := by
  unfold step
  rw [ho]

theorem step_of_unwound (hu : c.stage = .unwound) (s : Stimulus) : c.step s = none := by
  unfold step
  rw [hu]

/-- What a connection does about a stimulus is what the lists say. -/
theorem attends (h : c.step s = some (c', es)) :
    c.stage = .waiting ∧ AttendsWaiting c s c' es ∨
      ∃ w next, c.stage = .writing w next ∧ AttendsWriting c w next s c' es := by
  rcases hstage : c.stage with _ | ⟨w, next⟩ | ending | _
  · exact Or.inl ⟨rfl, attends_of_waiting hstage h⟩
  · exact Or.inr ⟨w, next, rfl, attends_of_writing hstage h⟩
  · cases (step_of_over hstage s).symm.trans h
  · cases (step_of_unwound hstage s).symm.trans h

end WireHttp.Connection
