/-
A connection is a server that handles one request at a time. It reads
ahead, hands requests over while others are unanswered and takes them
back in any order; none of it shows (`serves_in_turn`). What is written,
and how the connection ends, are given by `serve`, which takes the items
of the stream one after the other and knows nothing of machines, reads or
writes.

The ledger leaves two things to show. Whether a response announces the
close must not hang on the moment at which it is sent. It asks whether
the machine has stopped reading and owes nothing else; but without the
end of the stream a machine stops reading only at an item that none may
follow, and if it owes nothing else, that is the item being answered,
which announces the close anyway (`Turn.Due.eq_turn`). And a connection
must not end before it has reached that item. It would have to be told of
the end of the stream, and by then it has stopped reading
(`readEnd_not_mem`); or it would have to run out of items, and as long as
it goes on it reads (`Answered.wantsRead`).

One thing shows that a server which hands over one request at a time would
not have met in the same way. A request may panic in the very call that
hands it over. Such a panic is no outcome: nothing awaits it, so it unwinds
the connection, which then has no ending. All that can be said of it is
that what has been written is the beginning of what the server writes. A
connection whose requests panic, if at all, while their answers are awaited
is never unwound.
-/
import WireHttp.Proofs.Connection.Order

namespace WireHttp

-- ==================================================== one after the other

/-- What the server writes in answer to a request, and how it ends if
the request ends it; otherwise it goes on with what comes `later`. -/
def Outcome.serve (q : Request) (later : Bytes × Option Ending) :
    Outcome → Bytes × Option Ending
  | answered r =>
    match r.fault? with
    | some v => ([], some (.failed (.framing v)))
    | none =>
      if !q.keepAlive || r.headers.asksClose then
        (q.exchange.render r true, some (.closed .completed))
      else (q.exchange.render r false ++ later.1, later.2)
  | failed (.respond r) =>
    match r.withClose.fault? with
    | some v => ([], some (.failed (.framing v)))
    | none => (q.exchange.render r.withClose true, some (.closed .dispatcherError))
  | failed (.fault f) =>
    (q.exchange.render Response.internalError.withClose true,
      some (.failed (.dispatcher f.chain)))
  | panicked message =>
    (q.exchange.render Response.internalError.withClose true,
      some (.failed (.dispatcher (panicText message))))

/-- The server that handles one request at a time: what it writes in
answer to items, and how it ends if one of them ends it. -/
def serve (answer : Request → Outcome) : List Item → Bytes × Option Ending
  | [] => ([], none)
  | .request q :: rest => (answer q).serve q (serve answer rest)
  | .rejected e :: _ =>
    (Exchange.rejected.render (.ofStatus e.status) true, some (.closed (.badRequest e)))

/-- The turn of an item that calls for this reaction, whenever it is
taken. -/
def Item.turnOf (item : Item) (reaction : Reaction) : Turn where
  item := item
  reaction := reaction
  close := !item.keepAlive || reaction.response.headers.asksClose

/-- The turn of an item if requests are answered like this. -/
def Item.turn (answer : Request → Outcome) (item : Item) : Turn :=
  match item with
  | request q => item.turnOf (answer q).reaction
  | rejected e => item.turnOf e.reaction

theorem Outcome.serve_of_goesOn {q : Request} {later : Bytes × Option Ending} {o : Outcome}
    (h : o.reaction.response.fault? = none)
    (hgo : ((Item.request q).turnOf o.reaction).GoesOn) :
    o.serve q later = (((Item.request q).turnOf o.reaction).reply ++ later.1, later.2) := by
  obtain ⟨hclose, hnext⟩ := hgo
  cases o with
  | answered r =>
      change r.fault? = none at h
      change (!q.keepAlive || r.headers.asksClose) = false at hclose
      rw [serve, h]
      dsimp only
      rw [hclose, if_neg nofun]
      unfold Turn.reply
      rw [show ((Item.request q).turnOf (answered r).reaction).close = false from hclose]
      rfl
  | failed error => cases error <;> cases hnext
  | panicked message => cases hnext

section Serve

variable {answer : Request → Outcome} {item : Item} {rest : List Item}

theorem serve_of_goesOn (h : (item.turn answer).reaction.response.fault? = none)
    (hgo : (item.turn answer).GoesOn) :
    serve answer (item :: rest)
      = ((item.turn answer).reply ++ (serve answer rest).1, (serve answer rest).2) := by
  cases item with
  | request q => exact Outcome.serve_of_goesOn h hgo
  | rejected e => cases hgo.2

/-- Turns that went on are what the server does first. -/
theorem serve_of_log {items : List Item} {log : List Turn}
    (h : ∀ (i : Nat) (t : Turn), log[i]? = some t → items[i]? = some t.item ∧
      t.item.turn answer = t ∧ t.reaction.response.fault? = none ∧ t.GoesOn) :
    serve answer items =
      (log.flatMap Turn.reply ++ (serve answer (items.drop log.length)).1,
        (serve answer (items.drop log.length)).2) := by
  induction log generalizing items with
  | nil => rfl
  | cons t log ih =>
      obtain ⟨hitem, hturn, hfit, hgo⟩ := h 0 t rfl
      cases items with
      | nil => cases hitem
      | cons item items =>
          cases hitem
          have hrest := ih fun i u hu => h (i + 1) u hu
          rw [← hturn] at hfit hgo
          rw [serve_of_goesOn hfit hgo, hrest, hturn, List.flatMap_cons, List.append_assoc]
          rfl

end Serve

-- ============================================================ the moment

/-- Without the end of the stream, a machine stops reading only at an
item that none may follow. -/
theorem exists_last_of_closing {limits : Limits} {ss : List Stimulus} {n : Nat}
    (he : ended ss = false) (hc : (after limits ss n).phase = .closing) :
    ∃ front item, items limits (received ss) = front ++ [item] ∧ item.keepAlive = false := by
  have ht := Machine.tallied_intake limits (received ss) false
  have hphase : (Machine.intake limits (received ss) false).2.phase = .closing := by
    unfold after at hc
    rw [he] at hc
    exact hc
  rcases ht.of_atRest (Machine.atRest_intake limits (received ss) false)
    (Machine.eof_intake limits (received ss) false) with ⟨hne, -⟩ | ⟨-, -, front, item, heq, -, hl⟩
  · exact absurd hphase hne
  · exact ⟨front, item, heq, hl⟩

/-- After a turn that went on another item may follow. -/
theorem Turn.Sent.keepAlive {limits : Limits} {ss : List Stimulus} {i : Nat} {t : Turn}
    (h : t.Sent limits ss i) (hgo : t.GoesOn) : t.item.keepAlive = true := by
  obtain ⟨before, -, hdue, -⟩ := h
  have hclose := hdue.close_eq
  rw [hgo.1] at hclose
  unfold Machine.closesAfter at hclose
  simp only [Bool.or_eq_false_iff, Bool.not_eq_false'] at hclose
  exact hclose.1.2

/-- A connection that has answered all that it has received, and went on
each time, still reads, unless it has been told of the end. -/
theorem Answered.wantsRead {limits : Limits} {ss : List Stimulus} {es : List Effect}
    {log : List Turn} {part : Bytes} (ha : Answered limits ss es log part)
    (he : ended ss = false) (hlen : (items limits (received ss)).length = log.length) :
    (after limits ss log.length).wantsRead = true := by
  rw [← Bool.not_eq_false]
  intro hw
  have hclosing : (after limits ss log.length).phase = .closing := by
    unfold Machine.wantsRead at hw
    rw [eof_after, he, Bool.not_false, Bool.and_true, bne_eq_false_iff_eq] at hw
    exact hw
  obtain ⟨front, item, heq, hl⟩ := exists_last_of_closing he hclosing
  rw [heq, List.length_append, List.length_singleton] at hlen
  obtain ⟨t, ht⟩ : ∃ t, log[front.length]? = some t := ⟨_, List.getElem?_eq_getElem (by omega)⟩
  obtain ⟨hsent, hgo⟩ := ha.turns front.length t ht
  have hitem := hsent.answers.item_eq
  rw [heq, List.getElem?_append_right (Nat.le_refl _), Nat.sub_self] at hitem
  cases hitem
  cases hl.symm.trans (hsent.keepAlive hgo)

/-- The moment at which an item is answered does not show. -/
theorem Turn.Due.eq_turn {limits : Limits} {ss : List Stimulus} {i : Nat} {t : Turn}
    (h : t.Due limits ss i) (he : ended ss = false) : t.item.turnOf t.reaction = t := by
  have hclose : t.close = (!t.item.keepAlive || t.reaction.response.headers.asksClose) := by
    rw [← h.close_eq]
    unfold Machine.closesAfter
    by_cases hc : ((after limits ss i).phase == .closing
        && (after limits ss i).owed.length == 1) = true
    · obtain ⟨hphase, hlen⟩ := Bool.and_eq_true_iff.1 hc
      obtain ⟨front, item, heq, hl⟩ := exists_last_of_closing he (beq_iff_eq.1 hphase)
      have hget := h.item_eq
      rw [beq_iff_eq, owed_after, List.length_map, List.length_drop, heq, List.length_append,
        List.length_singleton] at hlen
      rw [heq, List.getElem?_append_right (by omega),
        show i - front.length = 0 by omega] at hget
      cases hget
      rw [hc, hl]
      rfl
    · rw [Bool.not_eq_true] at hc
      rw [hc, Bool.false_or]
      rfl
  exact congrArg (Turn.mk t.item t.reaction) hclose.symm

-- ============================================================== refinement

/-- The stimuli play a stream to a connection: they bring bytes of it, its
end only after all of them, and the outcomes that `answer` has for its
requests; and no fault. -/
structure Plays (limits : Limits) (stream : Bytes) (answer : Request → Outcome)
    (ss : List Stimulus) : Prop where
  reads : received ss <+: stream
  readsEnd : ∀ before, before ++ [.readEnd] <+: ss → received before = stream
  outcomes : ∀ i outcome q, (i, outcome) ∈ returned ss →
    (items limits stream)[i]? = some (.request q) → outcome = answer q
  noFault : ∀ s ∈ ss, s.isFault = false

variable {settings : Settings} {stream : Bytes} {answer : Request → Outcome}
  {ss : List Stimulus} {c : Connection} {es : List Effect}

theorem ended_eq_false {before : List Stimulus} (hb : before <+: ss)
    (hopen : Stimulus.readEnd ∉ ss) : ended before = false := by
  rw [← Bool.not_eq_true, ended_iff]
  intro h
  exact hopen (hb.subset h)

/-- What is due is the turn that its item has at any time. -/
theorem Plays.turn_eq {limits : Limits} (hp : Plays limits stream answer ss)
    {before : List Stimulus} (hb : before <+: ss) (he : ended before = false) {i : Nat} {t : Turn}
    (h : t.Due limits before i) :
    (items limits stream)[i]? = some t.item ∧ t.item.turn answer = t := by
  have hi := items_getElem? ((received_mono hb).trans hp.reads) h.item_eq
  refine ⟨hi, ?_⟩
  have hturn := h.eq_turn he
  have hr := h.reacts
  unfold Item.turn
  cases hitem : t.item with
  | request q =>
      rw [hitem] at hr hi hturn
      obtain ⟨outcome, hmem, heq⟩ := hr
      show (Item.request q).turnOf (answer q).reaction = t
      rw [← hp.outcomes i outcome q (returned_mono hb hmem) hi, ← heq]
      exact hturn
  | rejected e =>
      rw [hitem] at hr hturn
      show (Item.rejected e).turnOf e.reaction = t
      rw [← show t.reaction = e.reaction from hr]
      exact hturn

/-- The turns that are complete are those that the items have at any
time. -/
theorem Plays.turns_eq {limits : Limits} (hp : Plays limits stream answer ss)
    (hopen : Stimulus.readEnd ∉ ss) {log : List Turn} {part : Bytes}
    (ha : Answered limits ss es log part) :
    ∀ (i : Nat) (t : Turn), log[i]? = some t → (items limits stream)[i]? = some t.item ∧
      t.item.turn answer = t ∧ t.reaction.response.fault? = none ∧ t.GoesOn := by
  intro i t ht
  obtain ⟨⟨before, hb, hdue, hfit⟩, hgo⟩ := ha.turns i t ht
  obtain ⟨hitem, heq⟩ := hp.turn_eq hb (ended_eq_false hb hopen) hdue
  exact ⟨hitem, heq, hfit, hgo⟩

/-- What has been written by a connection that has not ended is the
beginning of what the server writes, if all of it is whole answers. -/
theorem Plays.written_prefix (hp : Plays settings.limits stream answer ss)
    (hopen : Stimulus.readEnd ∉ ss) {log : List Turn}
    (ha : Answered settings.limits ss es log []) :
    written es <+: (serve answer (items settings.limits stream)).1 := by
  rw [serve_of_log (hp.turns_eq hopen ha), ha.written_eq, List.append_nil]
  exact List.prefix_append _ _

end WireHttp
