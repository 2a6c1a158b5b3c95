/-
Flushing neither loses nor repeats a byte. Whatever the transport does,
and however often a flush is begun anew, the bytes taken so far are the
front of the buffer, and each write offers the rest of it, from the very
byte at which the last one stopped.

`attempts` lists the writes of a flush, with what each offers and how it is
answered; `Flushes` says how they come about: there is nothing to write,
or a write fails and is the last, or it takes some bytes and the flush goes
on behind them. Each fact about a flush is an induction over these three,
and what holds of several flushes in a row follows from what holds of one
(`pending_flushTimes`).
-/
import WireHttp.Writer

namespace WireHttp

-- ========================================================== one write

/-- The error that a reply to some bytes amounts to. -/
def WriteReply.error? : WriteReply → Option WriteError
  | accept 0 => some .tookNone
  | accept (_ + 1) => none
  | fail message => some (.failed message)

theorem WriteReply.error?_eq_tookNone_iff (reply : WriteReply) :
    reply.error? = some .tookNone ↔ reply = .accept 0 := by
  cases reply with
  | accept limit => cases limit <;> simp [error?]
  | fail message => simp [error?]

theorem WriteReply.error?_eq_failed_iff (reply : WriteReply) (message : String) :
    reply.error? = some (.failed message) ↔ reply = .fail message := by
  cases reply with
  | accept limit => cases limit <;> simp [error?]
  | fail message' => simp [error?]

namespace Writer

/-- A write: the bytes that the transport was offered, and its reply. -/
structure Attempt where
  offered : Bytes
  reply : WriteReply
  deriving DecidableEq, Repr

namespace Attempt

/-- The bytes that the transport took. -/
def taken (a : Attempt) : Bytes :=
  match a.reply with
  | .accept limit => a.offered.take limit
  | .fail _ => []

/-- The bytes that it left. -/
def left (a : Attempt) : Bytes :=
  match a.reply with
  | .accept limit => a.offered.drop limit
  | .fail _ => a.offered

theorem taken_append_left (a : Attempt) : a.taken ++ a.left = a.offered := by
  unfold taken left
  split
  · exact List.take_append_drop _ _
  · rfl

/-- A write that does not fail takes a byte at least. -/
theorem length_left_lt {a : Attempt} (hb : a.offered ≠ []) (he : a.reply.error? = none) :
    a.left.length < a.offered.length := by
  have hsome := List.length_pos_iff.2 hb
  unfold left
  cases hr : a.reply with
  | fail message =>
      rw [hr] at he
      cases he
  | accept limit =>
      cases limit with
      | zero =>
          rw [hr] at he
          cases he
      | succ limit =>
          rw [List.length_drop]
          omega

end Attempt

theorem offer_of_error {w : Writer} {reply : WriteReply} {e : WriteError}
    (h : reply.error? = some e) : w.offer reply = .error e := by
  cases reply with
  | fail message =>
      cases h
      rfl
  | accept limit =>
      cases limit with
      | zero =>
          cases h
          rfl
      | succ limit => cases h

theorem offer_of_taken {w : Writer} {reply : WriteReply} (h : reply.error? = none) :
    w.offer reply
      = .ok (Attempt.taken ⟨w.pending, reply⟩, ⟨Attempt.left ⟨w.pending, reply⟩⟩) := by
  cases reply with
  | fail message => cases h
  | accept limit =>
      cases limit with
      | zero => cases h
      | succ limit => rfl

/-- A write that does not fail loses nothing. -/
theorem pending_of_offer {w rest : Writer} {reply : WriteReply} {taken : Bytes}
    (h : w.offer reply = .ok (taken, rest)) : taken ++ rest.pending = w.pending := by
  cases he : reply.error? with
  | some e =>
      rw [offer_of_error he] at h
      cases h
  | none =>
      rw [offer_of_taken he] at h
      cases h
      exact Attempt.taken_append_left ⟨w.pending, reply⟩

-- ========================================================== one flush

/-- The writes of a flush, first to last. A transport whose replies have
run out takes everything. -/
def attempts (w : Writer) : List WriteReply → List Attempt
  | [] => if w.isDone then [] else [⟨w.pending, .accept w.remaining⟩]
  | reply :: replies =>
    if w.isDone then []
    else
      ⟨w.pending, reply⟩ ::
        match w.offer reply with
        | .error _ => []
        | .ok (_, rest) => rest.attempts replies

/-- How the writes of a flush come about, its result and what it leaves. -/
inductive Flushes : Writer → List Attempt → Except WriteError Unit → Writer → Prop
  | done {w : Writer} : w.pending = [] → Flushes w [] (.ok ()) w
  | cut {w : Writer} {reply : WriteReply} {e : WriteError} : w.pending ≠ [] →
      reply.error? = some e → Flushes w [⟨w.pending, reply⟩] (.error e) w
  | more {w last : Writer} {reply : WriteReply} {as : List Attempt}
      {result : Except WriteError Unit} : w.pending ≠ [] → reply.error? = none →
      Flushes ⟨Attempt.left ⟨w.pending, reply⟩⟩ as result last →
      Flushes w (⟨w.pending, reply⟩ :: as) result last

variable {w last : Writer} {as : List Attempt} {result : Except WriteError Unit}

theorem isDone_iff : w.isDone = true ↔ w.pending = [] :=
  List.isEmpty_iff

/-- What is taken and what is left make up what there was. -/
theorem Flushes.taken_append_pending (h : Flushes w as result last) :
    as.flatMap Attempt.taken ++ last.pending = w.pending := by
  induction h with
  | done => rfl
  | @cut w reply e hb he =>
      -- a write that fails takes nothing
      have hnone : Attempt.taken ⟨w.pending, reply⟩ = [] := by
        cases reply with
        | fail message => rfl
        | accept limit =>
            cases limit with
            | zero => rfl
            | succ limit => cases he
      rw [List.flatMap_cons, hnone]
      rfl
  | @more w last reply as result hb he _ ih =>
      rw [List.flatMap_cons, List.append_assoc, ih]
      exact Attempt.taken_append_left ⟨w.pending, reply⟩

/-- Each write offers what the writes before it have left, which is not
nothing. -/
theorem Flushes.offers (h : Flushes w as result last) {front back : List Attempt} {a : Attempt}
    (ha : as = front ++ a :: back) :
    front.flatMap Attempt.taken ++ a.offered = w.pending ∧ a.offered ≠ [] := by
  induction h generalizing front with
  | done => exact absurd ha (by simp)
  | cut hb =>
      obtain ⟨rfl, hback⟩ := List.append_eq_singleton_iff.1 ha.symm |>.resolve_right (by simp)
      obtain ⟨rfl, -⟩ := List.cons.inj hback
      exact ⟨rfl, hb⟩
  | @more w last reply as result hb he _ ih =>
      cases front with
      | nil =>
          obtain ⟨rfl, -⟩ := List.cons.inj ha
          exact ⟨rfl, hb⟩
      | cons first front =>
          obtain ⟨rfl, hrest⟩ := List.cons.inj ha
          obtain ⟨hoffered, hsome⟩ := ih hrest
          refine ⟨?_, hsome⟩
          rw [List.flatMap_cons, List.append_assoc, hoffered]
          exact Attempt.taken_append_left ⟨w.pending, reply⟩

/-- A flush succeeds just if it leaves nothing. -/
theorem Flushes.eq_ok_iff (h : Flushes w as result last) :
    result = .ok () ↔ last.pending = [] := by
  induction h with
  | done hb => exact ⟨fun _ => hb, fun _ => rfl⟩
  | cut hb => exact ⟨nofun, fun h => absurd h hb⟩
  | more _ _ _ ih => exact ih

/-- It fails with an error just if a write does. -/
theorem Flushes.eq_error_iff (h : Flushes w as result last) (e : WriteError) :
    result = .error e ↔ ∃ a ∈ as, a.reply.error? = some e := by
  induction h with
  | done => simp
  | cut hb he => simp [he]
  | more hb he _ ih =>
      rw [ih]
      simp [he]

/-- The write that fails is the last, and what it offered is left. -/
theorem Flushes.offered_of_error (h : Flushes w as result last) {e : WriteError}
    (he : result = .error e) : ∃ a, as.getLast? = some a ∧ a.offered = last.pending := by
  induction h with
  | done => cases he
  | cut => exact ⟨_, rfl, rfl⟩
  | more _ _ _ ih =>
      obtain ⟨a, hlast, hoffered⟩ := ih he
      refine ⟨a, ?_, hoffered⟩
      rw [List.getLast?_cons, hlast]
      rfl

/-- Each write but the last takes a byte at least, and so does the last
unless it fails, which it does with a byte to spare. -/
theorem Flushes.length_le (h : Flushes w as result last) : as.length ≤ w.remaining := by
  induction h with
  | done => exact Nat.zero_le _
  | cut hb => exact List.length_pos_iff.2 hb
  | @more w last reply as result hb he _ ih =>
      have hless := Attempt.length_left_lt (a := ⟨w.pending, reply⟩) hb he
      exact Nat.lt_of_le_of_lt ih hless

-- ============================================== what a flush follows

/-- A flush makes the writes that are listed, and nothing else comes of
it. -/
theorem flushes_flush (w : Writer) (replies : List WriteReply) :
    Flushes w (w.attempts replies) (w.flush replies).result (w.flush replies).writer ∧
      (w.flush replies).taken = (w.attempts replies).flatMap Attempt.taken ∧
      (w.flush replies).writes = (w.attempts replies).length ∧
      (w.flush replies).unused = replies.drop (w.attempts replies).length := by
  induction replies generalizing w with
  | nil =>
      by_cases hd : w.isDone = true
      · have hb := isDone_iff.1 hd
        obtain ⟨pending⟩ := w
        subst hb
        exact ⟨.done rfl, rfl, rfl, rfl⟩
      · have hb := mt isDone_iff.2 hd
        have hattempts : w.attempts [] = [⟨w.pending, .accept w.remaining⟩] := if_neg hd
        have htaken : Attempt.taken ⟨w.pending, .accept w.remaining⟩ = w.pending :=
          List.take_length
        have hleft : Attempt.left ⟨w.pending, .accept w.remaining⟩ = [] := List.drop_length
        have herror : (WriteReply.accept w.remaining).error? = none := by
          obtain ⟨size, hsize⟩ := Nat.exists_eq_succ_of_ne_zero
            (Nat.ne_of_gt (List.length_pos_iff.2 hb))
          rw [show w.remaining = size + 1 from hsize]
          rfl
        rw [hattempts]
        refine ⟨.more hb herror ?_, ?_, ?_, rfl⟩
        · rw [hleft]
          exact .done rfl
        · rw [List.flatMap_singleton, htaken]
          rfl
        · exact if_neg hd
  | cons reply replies ih =>
      by_cases hd : w.isDone = true
      · have hb := isDone_iff.1 hd
        unfold attempts flush
        rw [if_pos hd, if_pos hd]
        exact ⟨.done hb, rfl, rfl, rfl⟩
      · have hb := mt isDone_iff.2 hd
        unfold attempts flush
        rw [if_neg hd, if_neg hd]
        cases he : reply.error? with
        | some e =>
            rw [offer_of_error he]
            refine ⟨.cut hb he, ?_, rfl, rfl⟩
            have hwhole := (Flushes.cut hb he).taken_append_pending
            exact (List.append_left_eq_self.1 hwhole).symm
        | none =>
            rw [offer_of_taken he]
            obtain ⟨hrest, htaken, hwrites, hunused⟩ := ih ⟨Attempt.left ⟨w.pending, reply⟩⟩
            refine ⟨.more hb he hrest, ?_, ?_, hunused⟩
            · rw [List.flatMap_cons, ← htaken]
            · rw [List.length_cons, ← hwrites]

/-- Each write gets the reply that is due. -/
theorem reply_attempts (w : Writer) (replies : List WriteReply) {front back : List Attempt}
    {a : Attempt} (ha : w.attempts replies = front ++ a :: back) :
    a.reply = replies.getD front.length (.accept a.offered.length) := by
  induction replies generalizing w front with
  | nil =>
      unfold attempts at ha
      split at ha
      · exact absurd ha (by simp)
      · obtain ⟨rfl, hback⟩ := List.append_eq_singleton_iff.1 ha.symm |>.resolve_right (by simp)
        obtain ⟨rfl, -⟩ := List.cons.inj hback
        rfl
  | cons reply replies ih =>
      unfold attempts at ha
      split at ha
      · exact absurd ha (by simp)
      · cases front with
        | nil =>
            obtain ⟨rfl, -⟩ := List.cons.inj ha
            rfl
        | cons first front =>
            obtain ⟨-, hrest⟩ := List.cons.inj ha
            split at hrest
            · exact absurd hrest (by simp)
            · exact ih _ hrest

-- ===================================================== flush by flush

/-- What several flushes in a row have come to. -/
structure Progress where
  /-- The bytes taken so far. -/
  taken : Bytes
  writer : Writer
  /-- The replies that have not been called for. -/
  unused : List WriteReply
  deriving DecidableEq, Repr

/-- Flushes a number of times. The transport goes on with its replies where
the flush before stopped. -/
def flushTimes (w : Writer) (replies : List WriteReply) : Nat → Progress
  | 0 => ⟨[], w, replies⟩
  | times + 1 =>
    let p := w.flushTimes replies times
    let f := p.writer.flush p.unused
    ⟨p.taken ++ f.taken, f.writer, f.unused⟩

theorem taken_append_pending_flush (w : Writer) (replies : List WriteReply) :
    (w.flush replies).taken ++ (w.flush replies).writer.pending = w.pending := by
  obtain ⟨hflushes, htaken, -, -⟩ := flushes_flush w replies
  rw [htaken]
  exact hflushes.taken_append_pending

/-- What has been taken so far and what is pending make up the buffer. -/
theorem pending_flushTimes (w : Writer) (replies : List WriteReply) (times : Nat) :
    (w.flushTimes replies times).taken ++ (w.flushTimes replies times).writer.pending
      = w.pending := by
  induction times with
  | zero => rfl
  | succ times ih =>
      unfold flushTimes
      dsimp only
      rw [List.append_assoc, taken_append_pending_flush, ih]

/-- What a flush of a writer comes to that has `bytes` to write, of which
`taken` have been taken. -/
structure Resumes (bytes taken : Bytes) (w : Writer) (replies : List WriteReply) : Prop where
  /-- The flush makes the writes that are listed, and takes what they take. -/
  takes : (w.flush replies).taken = (w.attempts replies).flatMap Attempt.taken
  writes : (w.flush replies).writes = (w.attempts replies).length
  unused : (w.flush replies).unused = replies.drop (w.flush replies).writes
  /-- Each write is made while bytes remain. It offers those that have not
  been taken before it, and gets the reply that is due. -/
  offers : ∀ front a back, w.attempts replies = front ++ a :: back →
    a.offered = bytes.drop (taken ++ front.flatMap Attempt.taken).length ∧ a.offered ≠ [] ∧
      a.reply = replies.getD front.length (.accept a.offered.length)
  /-- The flush succeeds just if the whole buffer has then been taken. -/
  succeeds : (w.flush replies).result = .ok () ↔ taken ++ (w.flush replies).taken = bytes
  tookNone : (w.flush replies).result = .error .tookNone ↔
    ∃ a ∈ w.attempts replies, a.reply = .accept 0
  failed : ∀ message, (w.flush replies).result = .error (.failed message) ↔
    ∃ a ∈ w.attempts replies, a.reply = .fail message
  /-- The write that fails is the last, and moves nothing. -/
  stays : ∀ e, (w.flush replies).result = .error e →
    ∃ a, (w.attempts replies).getLast? = some a ∧
      (w.flush replies).writer.pending = a.offered
  /-- No more writes are made than bytes remain. -/
  few : (w.flush replies).writes ≤ w.remaining

/-- However often a response is flushed, and whatever the transport does,
what it has taken is the front of the response, up to what remains, and a
further flush goes on from there. -/
theorem flush_resumes (bytes : Bytes) (replies : List WriteReply) (times : Nat) :
    let p := (ofBytes bytes).flushTimes replies times
    p.taken = bytes.take (bytes.length - p.writer.remaining) ∧
      Resumes bytes p.taken p.writer p.unused := by
  have hwhole := pending_flushTimes (ofBytes bytes) replies times
  dsimp only
  generalize (ofBytes bytes).flushTimes replies times = p at hwhole
  obtain ⟨taken, w, unused⟩ := p
  obtain ⟨hflushes, htaken, hwrites, hunused⟩ := flushes_flush w unused
  have hflush := taken_append_pending_flush w unused
  dsimp only at hwhole ⊢
  replace hwhole : taken ++ w.pending = bytes := hwhole
  constructor
  · have hlength : bytes.length - w.remaining = taken.length := by
      rw [← hwhole, List.length_append]
      exact Nat.add_sub_cancel _ _
    rw [hlength, ← hwhole, List.take_left]
  · refine ⟨htaken, hwrites, by rw [hwrites, hunused], ?_, ?_, ?_, ?_, ?_, ?_⟩
    · intro front a back ha
      obtain ⟨hoffered, hsome⟩ := hflushes.offers ha
      refine ⟨?_, hsome, reply_attempts w unused ha⟩
      rw [← hwhole, ← hoffered, ← List.append_assoc, List.drop_left]
    · rw [hflushes.eq_ok_iff, ← hwhole, ← hflush, List.append_right_inj]
      exact List.self_eq_append_right.symm
    · rw [hflushes.eq_error_iff]
      simp only [WriteReply.error?_eq_tookNone_iff]
    · intro message
      rw [hflushes.eq_error_iff]
      simp only [WriteReply.error?_eq_failed_iff]
    · intro e he
      obtain ⟨a, hlast, hoffered⟩ := hflushes.offered_of_error he
      exact ⟨a, hlast, hoffered.symm⟩
    · rw [hwrites]
      exact hflushes.length_le

/-- A flush that stops at a write of nothing, one that fails at once, and
one that takes what is left. -/
example : (ofBytes [1, 2, 3, 4, 5]).flushTimes
    [.accept 2, .accept 0, .fail "broken", .accept 1] 3 = ⟨[1, 2, 3, 4, 5], ⟨[]⟩, []⟩ := by
  decide

end Writer

end WireHttp
