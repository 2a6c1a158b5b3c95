/-
The history of a connection: what its stimuli have brought, and what it
has done. A statement about runs is proved stimulus by stimulus, each one
coming after all the others (`run_induction`), so a history is read from
its end: every function of it has a lemma for one more stimulus.

Requests are numbered in the order of their arrival, from 0. The place of
a request among the unanswered, plus the number of those answered before,
is its number, so `returned` can tell which outcome is whose.
-/
import Mathlib.Data.List.Induction
import WireHttp.Connection.Step

namespace WireHttp

-- ==================================================== what has happened

/-- The bytes that a stimulus brings. -/
def Stimulus.data : Stimulus → Bytes
  | read data => data
  | _ => []

/-- All bytes that have been read. -/
def received (ss : List Stimulus) : Bytes :=
  ss.flatMap Stimulus.data

/-- Whether the end of the stream has been read. -/
def ended (ss : List Stimulus) : Bool :=
  ss.contains .readEnd

/-- How many requests have been taken up to be answered. -/
def answers (ss : List Stimulus) : Nat :=
  ss.count .answer

/-- The outcomes that stimuli bring, each with the number of its request,
where `n` requests have been answered before. -/
def returnedFrom (n : Nat) : List Stimulus → List (Nat × Outcome)
  | [] => []
  | .answer :: ss => returnedFrom (n + 1) ss
  | .finish place outcome :: ss => (n + place, outcome) :: returnedFrom n ss
  | _ :: ss => returnedFrom n ss

/-- The outcomes that have come back, each with the number of its
request. -/
def returned (ss : List Stimulus) : List (Nat × Outcome) :=
  returnedFrom 0 ss

/-- Whether a stimulus is a fault of the transport. -/
def Stimulus.isFault : Stimulus → Bool
  | readFault _ | write (.accept 0) | write (.fail _) => true
  | _ => false

/-- The bytes that an effect puts on the wire. -/
def Effect.data : Effect → Bytes
  | wrote data => data
  | called _ => []

/-- All bytes that the transport has taken. -/
def written (es : List Effect) : Bytes :=
  es.flatMap Effect.data

-- ==================================================== one more stimulus

theorem received_append (ss ss' : List Stimulus) :
    received (ss ++ ss') = received ss ++ received ss' :=
  List.flatMap_append

theorem received_concat (ss : List Stimulus) (s : Stimulus) :
    received (ss ++ [s]) = received ss ++ s.data := by
  rw [received_append]
  show received ss ++ (s.data ++ []) = _
  rw [List.append_nil]

theorem received_mono {ss ss' : List Stimulus} (h : ss <+: ss') : received ss <+: received ss' := by
  obtain ⟨rest, rfl⟩ := h
  rw [received_append]
  exact List.prefix_append _ _

theorem ended_iff {ss : List Stimulus} : ended ss = true ↔ Stimulus.readEnd ∈ ss := by
  unfold ended
  exact List.contains_iff_mem

theorem ended_concat (ss : List Stimulus) (s : Stimulus) :
    ended (ss ++ [s]) = (ended ss || s == .readEnd) := by
  rw [Bool.eq_iff_iff, Bool.or_eq_true, ended_iff, ended_iff, beq_iff_eq, List.mem_append,
    List.mem_singleton]
  exact or_congr_right eq_comm

theorem answers_concat (ss : List Stimulus) (s : Stimulus) :
    answers (ss ++ [s]) = answers ss + if s = .answer then 1 else 0 := by
  unfold answers
  rw [List.count_append, List.count_singleton]
  simp only [beq_iff_eq]

theorem answers_append (ss ss' : List Stimulus) : answers (ss ++ ss') = answers ss + answers ss' :=
  List.count_append

theorem returnedFrom_append (n : Nat) (ss ss' : List Stimulus) :
    returnedFrom n (ss ++ ss') = returnedFrom n ss ++ returnedFrom (n + answers ss) ss' := by
  induction ss generalizing n with
  | nil => rfl
  | cons s ss ih =>
      have hc : answers (s :: ss) = answers ss + if s = .answer then 1 else 0 := by
        unfold answers
        rw [List.count_cons]
        simp only [beq_iff_eq]
      rw [List.cons_append, hc]
      cases s with
      | answer =>
          show returnedFrom (n + 1) (ss ++ ss') = _
          rw [ih, if_pos rfl, Nat.add_comm (answers ss) 1, ← Nat.add_assoc]
          rfl
      | finish place outcome =>
          show (n + place, outcome) :: returnedFrom n (ss ++ ss') = _
          rw [ih]
          rfl
      | _ => exact ih n

/-- The numbers go on from those answered before. -/
theorem le_of_mem_returnedFrom {n : Nat} {ss : List Stimulus} {p : Nat × Outcome}
    (h : p ∈ returnedFrom n ss) : n ≤ p.1 := by
  induction ss generalizing n with
  | nil => cases h
  | cons s ss ih =>
      cases s with
      | answer => exact Nat.le_of_succ_le (ih h)
      | finish place outcome =>
          rcases List.mem_cons.1 h with rfl | h
          · exact Nat.le_add_right n place
          · exact ih h
      | _ => exact ih h

theorem returned_concat (ss : List Stimulus) (s : Stimulus) :
    returned (ss ++ [s]) = returned ss ++ returnedFrom (answers ss) [s] := by
  unfold returned
  rw [returnedFrom_append, Nat.zero_add]

theorem returned_mono {ss ss' : List Stimulus} (h : ss <+: ss') : returned ss ⊆ returned ss' := by
  obtain ⟨rest, rfl⟩ := h
  unfold returned
  rw [returnedFrom_append]
  exact List.subset_append_left _ _

theorem written_append (es es' : List Effect) : written (es ++ es') = written es ++ written es' :=
  List.flatMap_append

namespace Connection

-- ================================================================= runs

theorem run_append (c : Connection) (ss ss' : List Stimulus) :
    c.run (ss ++ ss') =
      (c.run ss).bind fun front => (front.1.run ss').map fun back =>
        (back.1, front.2 ++ back.2) := by
  induction ss generalizing c with
  | nil =>
      show c.run ss' = (c.run ss').map fun back => (back.1, back.2)
      cases c.run ss' with
      | none => rfl
      | some back => rfl
  | cons s ss ih =>
      rw [List.cons_append, run, run]
      cases hs : c.step s with
      | none => rfl
      | some first =>
          show (first.1.run (ss ++ ss')).bind _ = ((first.1.run ss).bind _).bind _
          rw [ih]
          cases first.1.run ss with
          | none => rfl
          | some front =>
              show ((front.1.run ss').map _).bind _ = (front.1.run ss').map _
              cases front.1.run ss' with
              | none => rfl
              | some back =>
                  show some (back.1, first.2 ++ (front.2 ++ back.2)) = some _
                  rw [← List.append_assoc]

/-- What holds at the start, and after a stimulus if it held of the run
before it, holds of every run. -/
theorem run_induction {c₀ : Connection} {P : List Stimulus → Connection → List Effect → Prop}
    (nil : P [] c₀ [])
    (concat : ∀ ss c es s c' es', c₀.run ss = some (c, es) → P ss c es →
      c.step s = some (c', es') → P (ss ++ [s]) c' (es ++ es'))
    {ss : List Stimulus} {c : Connection} {es : List Effect} (h : c₀.run ss = some (c, es)) :
    P ss c es := by
  induction ss using List.reverseRecOn generalizing c es with
  | nil =>
      cases h
      exact nil
  | append_singleton ss s ih =>
      rw [run_append] at h
      obtain ⟨front, hfront, h⟩ := Option.bind_eq_some_iff.1 h
      obtain ⟨back, hback, h⟩ := Option.map_eq_some_iff.1 h
      cases hstep : front.1.step s with
      | none =>
          rw [run, hstep] at hback
          cases hback
      | some next =>
          rw [run, hstep] at hback
          cases hback
          cases h
          show P (ss ++ [s]) next.1 (front.2 ++ (next.2 ++ []))
          rw [List.append_nil]
          exact concat ss front.1 front.2 s next.1 next.2 hfront (ih hfront) hstep

end Connection

end WireHttp
