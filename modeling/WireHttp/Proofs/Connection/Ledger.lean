/-
What a connection has written. Every run keeps a ledger (`ledger`): the
items that have been answered in full, the first one first, and at most
one more of which a part is on the wire. Each entry (`Turn`) says what
was answered, with what, and whether the connection ends with it; and
that it is what the history so far called for (`Turn.Due`).

# Why the ledger holds

A connection that waits has written whole answers, and none of them was
its last, so it stands where `Tracks` says. What it answers next is then
the next item: the oldest request that it keeps, or, with none left, the
head that was refused. The machine owes that item first, so a response
either does not fit, which ends the connection with nothing written, or
is serialized as `sendResponse_of_fit` says.

While a response is being written nothing else is attended to. Its bytes
leave in order, and what has left and what is pending are the response
(`Ledger.writing`), whatever the transport takes at a time. When nothing
is pending the turn is complete: it was the last, or the connection goes
back to where `Tracks` says. A panic finds no response half-written, for
it comes while the connection waits (`Ledger.unwound`).

`Ends` lists the ways in which a connection can end, each with what the
wire then holds after the whole answers.
-/
import WireHttp.Proofs.Connection.Attends
import WireHttp.Proofs.Connection.Standing
import WireHttp.Proofs.Writer

namespace WireHttp

-- ================================================================ turns

/-- What an item is answered with, and what follows. -/
structure Reaction where
  response : Response
  next : AfterWrite
  deriving DecidableEq, Repr

/-- What follows from an outcome. -/
def Outcome.reaction : Outcome → Reaction
  | answered r => ⟨r, .carryOn⟩
  | failed (.respond r) => ⟨r.withClose, .endWith (.closed .dispatcherError)⟩
  | failed (.fault f) =>
    ⟨Response.internalError.withClose, .endWith (.failed (.dispatcher f.chain))⟩
  | panicked message =>
    ⟨Response.internalError.withClose, .endWith (.failed (.dispatcher (panicText message)))⟩

/-- What follows from a head that is refused. -/
def HeadError.reaction (e : HeadError) : Reaction :=
  ⟨.ofStatus e.status, .endAnyway (.closed (.badRequest e))⟩

theorem Connection.respond_eq (c : Connection) (outcome : Outcome) :
    c.respond outcome = c.beginWrite outcome.reaction.response outcome.reaction.next := by
  cases outcome with
  | answered r => rfl
  | failed error => cases error <;> rfl
  | panicked message => rfl

/-- How the connection ends with a response that has been written. -/
def AfterWrite.onSuccess (peerClosed : Bool) : AfterWrite → Ending
  | carryOn => .closed (if peerClosed then .peerClosed else .completed)
  | endWith ending | endAnyway ending => ending

/-- The reactions to the `i`-th item that outcomes which have come back
call for. -/
def Item.ReactsWith (back : List (Nat × Outcome)) (i : Nat) : Item → Reaction → Prop
  | request _, reaction => ∃ outcome, (i, outcome) ∈ back ∧ reaction = outcome.reaction
  | rejected e, reaction => reaction = e.reaction

/-- An item and its answer. -/
structure Turn where
  item : Item
  reaction : Reaction
  /-- The answer tells that the connection ends with it. -/
  close : Bool

namespace Turn

/-- The bytes of the answer. -/
def reply (t : Turn) : Bytes :=
  t.item.exchange.render t.reaction.response t.close

/-- Whether the connection goes on after the answer. -/
def GoesOn (t : Turn) : Prop :=
  t.close = false ∧ t.reaction.next = .carryOn

/-- The `i`-th item is to be answered in this way, by what has happened. -/
structure Due (limits : Limits) (ss : List Stimulus) (i : Nat) (t : Turn) : Prop where
  item_eq : (items limits (received ss))[i]? = some t.item
  reacts : t.item.ReactsWith (returned ss) i t.reaction
  close_eq : (after limits ss i).closesAfter t.item.exchange t.reaction.response.headers = t.close

/-- The `i`-th item has been answered in this way, when it was due. -/
def Sent (limits : Limits) (ss : List Stimulus) (i : Nat) (t : Turn) : Prop :=
  ∃ before, before <+: ss ∧ t.Due limits before i ∧ t.reaction.response.fault? = none

theorem Sent.mono {limits : Limits} {ss ss' : List Stimulus} {i : Nat} {t : Turn}
    (h : t.Sent limits ss i) (hss : ss <+: ss') : t.Sent limits ss' i := by
  obtain ⟨before, hb, hdue, hfit⟩ := h
  exact ⟨before, hb.trans hss, hdue, hfit⟩

theorem Due.owed {limits : Limits} {ss : List Stimulus} {i : Nat} {t : Turn}
    (h : t.Due limits ss i) : ∃ rest, (after limits ss i).owed = t.item.exchange :: rest := by
  obtain ⟨hlt, hget⟩ := List.getElem?_eq_some_iff.1 h.item_eq
  rw [owed_after, List.drop_eq_getElem_cons hlt, hget]
  exact ⟨_, rfl⟩

end Turn

-- =============================================================== ledger

/-- The turns that are complete, all of which went on, and the bytes that
have been written after them. -/
structure Answered (limits : Limits) (ss : List Stimulus) (es : List Effect) (log : List Turn)
    (part : Bytes) : Prop where
  turns : ∀ (i : Nat) (t : Turn), log[i]? = some t → t.Sent limits ss i ∧ t.GoesOn
  written_eq : written es = log.flatMap Turn.reply ++ part

/-- The ways in which a connection ends after the turns of `log`, each
with what has been written after them. -/
inductive Ends (settings : Settings) (ss : List Stimulus) (log : List Turn) : Bytes → Ending → Prop
  | idle : Ends settings ss log [] (.closed .idleTimeout)
  | readFault (message : String) : .readFault message ∈ ss →
      Ends settings ss log [] (.failed (.transport message))
  | truncated : .readEnd ∈ ss → Ends settings ss log [] (.failed .truncated)
  | misfit (t : Turn) (v : Violation) : t.Due settings.limits ss log.length →
      t.reaction.response.fault? = some v →
      Ends settings ss log [] (t.reaction.next.onFailure (.framing v))
  | exhausted : (items settings.limits (received ss)).length = log.length →
      (after settings.limits ss log.length).wantsRead = false →
      Ends settings ss log []
        (AfterWrite.carryOn.onSuccess (tallied settings.limits ss).peerClosed)
  | last (t : Turn) : t.Sent settings.limits ss log.length → ¬ t.GoesOn →
      Ends settings ss log t.reply
        (t.reaction.next.onSuccess (tallied settings.limits ss).peerClosed)
  | cut (t : Turn) (part : Bytes) (message : String) : t.Sent settings.limits ss log.length →
      part <+: t.reply → (∃ s ∈ ss, s.isFault = true) →
      Ends settings ss log part (t.reaction.next.onFailure (.transport message))

/-- The ledger of a connection. -/
inductive Ledger (settings : Settings) (ss : List Stimulus) (c : Connection) (es : List Effect) :
    Prop
  | waiting (log : List Turn) : c.stage = .waiting → Connection.Tracks settings ss log.length c →
      Answered settings.limits ss es log [] → Ledger settings ss c es
  | writing (log : List Turn) (t : Turn) (sent : Bytes) (w : Writer) :
      c.stage = .writing w t.reaction.next → t.Sent settings.limits ss log.length →
      Answered settings.limits ss es log sent → sent ++ w.pending = t.reply →
      c.peerClosed = (tallied settings.limits ss).peerClosed →
      c.machine.isWriteClosed = t.close →
      (t.GoesOn → Connection.Tracks settings ss (log.length + 1) c) → Ledger settings ss c es
  | finished (log : List Turn) (part : Bytes) (ending : Ending) : c.stage = .over ending →
      Answered settings.limits ss es log part → Ends settings ss log part ending →
      Ledger settings ss c es
  | unwound (log : List Turn) : c.stage = .unwound → .callPanics ∈ ss →
      Answered settings.limits ss es log [] → Ledger settings ss c es

theorem Answered.mono {limits : Limits} {ss ss' : List Stimulus} {es : List Effect}
    {log : List Turn} {part : Bytes} (h : Answered limits ss es log part) (hss : ss <+: ss') :
    Answered limits ss' es log part :=
  ⟨fun i t ht => ⟨(h.turns i t ht).1.mono hss, (h.turns i t ht).2⟩, h.written_eq⟩

/-- A turn that went on is complete when all of it has been written. -/
theorem Answered.concat {limits : Limits} {ss : List Stimulus} {es : List Effect}
    {log : List Turn} {t : Turn} (h : Answered limits ss es log t.reply)
    (ht : t.Sent limits ss log.length) (hgo : t.GoesOn) :
    Answered limits ss es (log ++ [t]) [] := by
  refine ⟨?_, ?_⟩
  · intro i u hu
    rcases getElem?_concat hu with hu | ⟨rfl, rfl⟩
    · exact h.turns i u hu
    · exact ⟨ht, hgo⟩
  · rw [h.written_eq, List.flatMap_append, List.flatMap_singleton, List.append_nil]

/-- What the transport takes has been written. -/
theorem Answered.wrote {limits : Limits} {ss : List Stimulus} {es : List Effect}
    {log : List Turn} {part : Bytes} (h : Answered limits ss es log part) (taken : Bytes) :
    Answered limits ss (es ++ [.wrote taken]) log (part ++ taken) := by
  refine ⟨h.turns, ?_⟩
  rw [written_append, h.written_eq, List.append_assoc]
  show _ ++ (part ++ (taken ++ [])) = _
  rw [List.append_nil]

/-- To hand a request over writes nothing. -/
theorem Answered.called {limits : Limits} {ss : List Stimulus} {es : List Effect}
    {log : List Turn} {part : Bytes} (h : Answered limits ss es log part) (request : Request) :
    Answered limits ss (es ++ [.called request]) log part := by
  refine ⟨h.turns, ?_⟩
  rw [written_append, h.written_eq]
  exact List.append_nil _

theorem isFault_of_offer {w : Writer} {reply : WriteReply} {e : WriteError}
    (h : w.offer reply = .error e) : (Stimulus.write reply).isFault = true := by
  cases reply with
  | fail message => rfl
  | accept limit =>
      cases limit with
      | zero => rfl
      | succ limit => cases h

namespace Connection

variable {settings : Settings} {ss : List Stimulus} {es : List Effect} {c : Connection}
  {log : List Turn}

-- ====================================================== a turn begins

/-- A response to the item that is owed first is refused, or its writing
begins. -/
theorem ledger_beginWrite {t : Turn} (ha : Answered settings.limits ss es log [])
    (hm : c.machine = after settings.limits ss log.length)
    (hp : c.peerClosed = (tallied settings.limits ss).peerClosed)
    (hdue : t.Due settings.limits ss log.length)
    (hgo : t.GoesOn → Awaits settings ss (log.length + 1) c) :
    Ledger settings ss (c.beginWrite t.reaction.response t.reaction.next) es := by
  obtain ⟨rest, howed⟩ := hdue.owed
  have hout := outbound_after settings.limits ss log.length
  rw [← hm] at howed hout
  have hclose := hdue.close_eq
  rw [← hm] at hclose
  unfold beginWrite
  cases hf : t.reaction.response.fault? with
  | some v =>
      rw [Machine.sendResponse_of_fault hout howed hf]
      dsimp only
      exact .finished log [] _ rfl ha (.misfit t v hdue hf)
  | none =>
      have hreply : t.item.exchange.render t.reaction.response t.close = t.reply := rfl
      rw [Machine.sendResponse_of_fit hout howed hf hclose, hreply]
      dsimp only
      refine .writing log t [] (.ofBytes t.reply) rfl ⟨ss, List.prefix_refl ss, hdue, hf⟩ ha
        (List.nil_append t.reply) hp ?_ ?_
      · cases t.close with
        | true => rfl
        | false =>
            show ((c.machine.served 1).outbound == .closed) = false
            rw [show (c.machine.served 1).outbound = .idle from hout]
            rfl
      · intro hgoes
        have hnext : (if t.close then (c.machine.served 1).failOutbound else c.machine.served 1)
            = after settings.limits ss (log.length + 1) := by
          rw [hgoes.1, if_neg nofun, hm]
          exact Machine.served_served _ _ _
        exact ⟨(hgo hgoes).aside _ c.timer c.now _, hnext⟩

/-- With every request answered, the next item is the refused head, or
there is none. -/
theorem Tracks.settled (h : Tracks settings ss log.length c) (hj : c.jobs = []) :
    (items settings.limits (received ss)).drop log.length = c.refused.toList.map .rejected := by
  have hdrop := h.mirrors.jobs
  rw [hj, List.map_nil] at hdrop
  have hlen : (tallied settings.limits ss).requests.length = log.length :=
    Nat.le_antisymm (List.drop_eq_nil_iff.1 hdrop.symm) h.mirrors.le
  rw [← items_tallied, h.mirrors.refused]
  unfold Tally.items
  rw [List.drop_append_of_le_length (by rw [List.length_map]; exact h.mirrors.le),
    ← List.map_drop, ← hdrop]
  rfl

/-- A connection that goes on waits, begins its last turn, or ends. -/
theorem ledger_proceed (h : Tracks settings ss log.length c)
    (ha : Answered settings.limits ss es log []) : Ledger settings ss c.proceed es := by
  have hwait : Ledger settings ss { c with stage := .waiting } es :=
    .waiting log rfl (h.aside c.timer c.now .waiting) ha
  have hp := c.proceeds
  generalize c.proceed = c' at hp
  cases hp with
  | waits => exact hwait
  | refuses e hj hr =>
      have hrest := h.settled hj
      rw [hr] at hrest
      have hget : (items settings.limits (received ss))[log.length]? = some (.rejected e) := by
        rw [← Nat.add_zero log.length, ← List.getElem?_drop, hrest]
        rfl
      have hdue : Turn.Due settings.limits ss log.length
          ⟨.rejected e, e.reaction, (after settings.limits ss log.length).closesAfter .rejected
            e.reaction.response.headers⟩ :=
        ⟨hget, rfl, rfl⟩
      have hturn := ledger_beginWrite (c := { c with refused := none }) ha h.machine_eq
        h.mirrors.peerClosed hdue (fun hgo => by cases hgo.2)
      exact hturn
  | ends hj hr hw =>
      have hrest := h.settled hj
      rw [hr] at hrest
      have hlen : (items settings.limits (received ss)).length = log.length :=
        Nat.le_antisymm (List.drop_eq_nil_iff.1 hrest) h.le_items
      rw [h.machine_eq] at hw
      refine .finished log [] _ rfl ha ?_
      unfold lastEnding
      rw [h.mirrors.peerClosed]
      exact .exhausted hlen hw

/-- A new connection. -/
theorem ledger_start (settings : Settings) :
    Ledger settings [] (Connection.start settings) [] := by
  have ha : Answered settings.limits [] [] [] [] := ⟨fun i t ht => by simp at ht, rfl⟩
  have h : Tracks settings [] ([] : List Turn).length _ := tracks_start settings
  exact ledger_proceed
    (h.aside (IdleTimer.arm {} 0 settings.idleTimeout settings.clock) 0 .waiting) ha

-- =========================================================== waiting

theorem phase_ne_closing_of_canRead (hc : c.canRead = true) : c.machine.phase ≠ .closing := by
  unfold canRead Machine.wantsRead at hc
  simp only [Bool.and_eq_true, bne_iff_ne] at hc
  exact hc.1.1

theorem eof_of_canRead (hc : c.canRead = true) : c.machine.eof = false := by
  unfold canRead Machine.wantsRead at hc
  simp only [Bool.and_eq_true, Bool.not_eq_true'] at hc
  exact hc.1.2

/-- A connection that reads has not read the end of the stream. -/
theorem Tracks.ended_eq {n : Nat} (h : Tracks settings ss n c) (hc : c.canRead = true) :
    ended ss = false := by
  rw [← eof_after settings.limits ss n, ← h.machine_eq]
  exact eof_of_canRead hc

/-- Where a connection stands that has read bytes, before it goes on. -/
theorem Tracks.read {n : Nat} (h : Tracks settings ss n c) (hc : c.canRead = true)
    (data : Bytes) :
    Tracks settings (ss ++ [.read data]) n
      { c with timer := c.timer.cancel, machine := c.machine.receive data }.drain := by
  have hm : c.machine.receive data
      = (after settings.limits ss n).arrive data (Stimulus.read data == .readEnd) := by
    rw [← h.machine_eq]
    rfl
  exact (h.toAwaits.aside (c.machine.receive data) c.timer.cancel c.now c.stage).drain
    (h.ended_eq hc) (Or.inl ⟨data, rfl⟩) hm

/-- Where a connection stands that has read the end of the stream, before
it goes on. -/
theorem Tracks.readEnd {n : Nat} (h : Tracks settings ss n c) (hc : c.canRead = true) :
    Tracks settings (ss ++ [.readEnd]) n { c with machine := c.machine.receiveEof }.drain := by
  have hm : c.machine.receiveEof
      = (after settings.limits ss n).arrive [] (Stimulus.readEnd == .readEnd) := by
    rw [beq_self_eq_true, Machine.arrive_true, Machine.receive_nil, h.machine_eq]
  exact (h.toAwaits.aside c.machine.receiveEof c.timer c.now c.stage).drain
    (h.ended_eq hc) (Or.inr rfl) hm

/-- All that comes of the end of the stream. -/
theorem Tracks.readEnd_eq (h : Tracks settings ss n c) (hc : c.canRead = true) :
    { c with machine := c.machine.receiveEof }.drain
      = { c with machine := c.machine.receiveEof.enterClosing, peerClosed := true } := by
  have hphase : (after settings.limits ss n).phase ≠ .closing := by
    rw [← h.machine_eq]
    exact phase_ne_closing_of_canRead hc
  have hdrain := drain_receiveEof_after settings.limits h.le_items (h.ended_eq hc) hphase
  rw [← h.machine_eq] at hdrain
  unfold drain
  dsimp only
  rw [hdrain]
  rfl

/-- Bytes are read. -/
theorem ledger_read (h : Tracks settings ss log.length c)
    (ha : Answered settings.limits ss es log []) (hc : c.canRead = true) (data : Bytes) :
    Ledger settings (ss ++ [.read data]) (c.afterRead data) es :=
  ledger_proceed (h.read hc data).armIfIdle (ha.mono (List.prefix_append ss _))

/-- The end of the stream is read. -/
theorem ledger_readEnd (h : Tracks settings ss log.length c)
    (ha : Answered settings.limits ss es log []) (hc : c.canRead = true) :
    Ledger settings (ss ++ [.readEnd]) c.afterReadEnd es := by
  have ha' := ha.mono (List.prefix_append ss [.readEnd])
  unfold afterReadEnd
  split
  · exact .finished log [] _ rfl ha' (.truncated (by simp))
  · exact ledger_proceed (h.readEnd hc) ha'

/-- The oldest unanswered request is answered. -/
theorem ledger_answer (h : Tracks settings ss log.length c)
    (ha : Answered settings.limits ss es log []) {request : Request} {outcome : Outcome}
    {jobs : List Job} (hjobs : c.jobs = ⟨request, .finished outcome⟩ :: jobs) :
    Ledger settings (ss ++ [.answer]) ({ c with jobs }.respond outcome) es := by
  have hss : ss <+: ss ++ [.answer] := List.prefix_append ss _
  obtain ⟨hget, hback, hnext⟩ := h.answer hjobs
  have hafter := after_concat (s := .answer) settings.limits ss log.length rfl nofun
  have htally := tallied_concat (s := .answer) settings.limits ss rfl nofun
  have hitem : (items settings.limits (received (ss ++ [.answer])))[log.length]?
      = some (.request request) := by
    rw [received_concat]
    exact (List.append_nil (received ss)).symm ▸ hget
  have hdue : Turn.Due settings.limits (ss ++ [.answer]) log.length
      ⟨.request request, outcome.reaction,
        (after settings.limits (ss ++ [.answer]) log.length).closesAfter request.exchange
          outcome.reaction.response.headers⟩ :=
    ⟨hitem, ⟨outcome, returned_mono hss hback, rfl⟩, rfl⟩
  rw [respond_eq]
  have hturn := ledger_beginWrite (c := { c with jobs }) (ha.mono hss)
    (h.machine_eq.trans hafter.symm)
    (h.mirrors.peerClosed.trans (congrArg Tally.peerClosed htally.symm)) hdue (fun _ => hnext)
  exact hturn

/-- What a waiting connection attends to keeps the ledger. -/
theorem ledger_of_waiting (h : Tracks settings ss log.length c)
    (ha : Answered settings.limits ss es log []) (hw : c.stage = .waiting) {s : Stimulus}
    {c' : Connection} {es' : List Effect} (hs : AttendsWaiting c s c' es') :
    Ledger settings (ss ++ [s]) c' (es ++ es') := by
  have ha' := ha.mono (List.prefix_append ss [s])
  cases hs with
  | read data hc =>
      rw [List.append_nil]
      exact ledger_read h ha hc data
  | readEnd hc =>
      rw [List.append_nil]
      exact ledger_readEnd h ha hc
  | readFault message =>
      rw [List.append_nil]
      exact .finished log [] _ rfl ha' (.readFault message (by simp))
  | call _ hcall =>
      have hq := h.quiet (s := .call) ⟨rfl, nofun, nofun, fun _ => rfl⟩
      exact .waiting log hw (hq.call hcall) (ha'.called _)
  | callPanics => exact .unwound log rfl (by simp) (ha'.called _)
  | finish hfinish =>
      rw [List.append_nil]
      exact .waiting log hw (h.finish hfinish) ha'
  | answer hjobs =>
      rw [List.append_nil]
      exact ledger_answer h ha hjobs
  | expired =>
      rw [List.append_nil]
      exact .finished log [] _ rfl ha' .idle
  | @stale token timer =>
      have hq := h.quiet (s := .timer) ⟨rfl, nofun, nofun, fun _ => rfl⟩
      rw [List.append_nil]
      exact ledger_proceed (hq.aside timer c.now c.stage) ha'
  | tick ms =>
      have hq := h.quiet (s := .tick ms) ⟨rfl, nofun, nofun, fun _ => rfl⟩
      rw [List.append_nil]
      exact .waiting log hw (hq.aside c.timer (c.now + ms) c.stage) ha'

-- =========================================================== writing

/-- With all of it written a turn was the last, or the connection goes
on. -/
theorem afterWrite_eq {t : Turn} (hclose : c.machine.isWriteClosed = t.close) :
    t.GoesOn ∧ c.afterWrite t.reaction.next = c.armIfIdle.proceed ∨
      ¬ t.GoesOn ∧
        c.afterWrite t.reaction.next = c.endWith (t.reaction.next.onSuccess c.peerClosed) := by
  unfold Turn.GoesOn
  rw [← hclose]
  cases t.reaction.next with
  | carryOn =>
      cases hc : c.machine.isWriteClosed with
      | true => exact Or.inr ⟨fun h => (by cases h.1), if_pos hc⟩
      | false => exact Or.inl ⟨⟨rfl, rfl⟩, if_neg (Bool.eq_false_iff.1 hc)⟩
  | endWith ending => exact Or.inr ⟨fun h => (by cases h.2), rfl⟩
  | endAnyway ending => exact Or.inr ⟨fun h => (by cases h.2), rfl⟩

theorem ledger_afterWrite {t : Turn} (ha : Answered settings.limits ss es log t.reply)
    (ht : t.Sent settings.limits ss log.length)
    (hp : c.peerClosed = (tallied settings.limits ss).peerClosed)
    (hclose : c.machine.isWriteClosed = t.close)
    (hgo : t.GoesOn → Tracks settings ss (log.length + 1) c) :
    Ledger settings ss (c.afterWrite t.reaction.next) es := by
  rcases afterWrite_eq hclose with ⟨hgoes, heq⟩ | ⟨hlast, heq⟩
  · have hlog : (log ++ [t]).length = log.length + 1 := by
      rw [List.length_append, List.length_singleton]
    have htracks := (hgo hgoes).armIfIdle
    rw [← hlog] at htracks
    rw [heq]
    exact ledger_proceed htracks (ha.concat ht hgoes)
  · rw [heq, hp]
    exact .finished log t.reply _ rfl ha (.last t ht hlast)

/-- While a response is written, nothing is read, answered or returned. -/
theorem AttendsWriting.quiet {w : Writer} {next : AfterWrite} {s : Stimulus} {c' : Connection}
    {es' : List Effect} (hs : AttendsWriting c w next s c' es') : Quiet s := by
  cases hs with
  | cut | part | last | tick => exact ⟨rfl, nofun, nofun, fun _ => rfl⟩

/-- What the transport takes of a response has been written of it, and
what it has not taken stays pending. -/
theorem ledger_of_writing {t : Turn} {sent : Bytes} {w : Writer}
    (ha : Answered settings.limits ss es log sent) (ht : t.Sent settings.limits ss log.length)
    (hsent : sent ++ w.pending = t.reply)
    (hp : c.peerClosed = (tallied settings.limits ss).peerClosed)
    (hclose : c.machine.isWriteClosed = t.close)
    (hgo : t.GoesOn → Tracks settings ss (log.length + 1) c)
    (hw : c.stage = .writing w t.reaction.next) {s : Stimulus} {c' : Connection}
    {es' : List Effect} (hs : AttendsWriting c w t.reaction.next s c' es') :
    Ledger settings (ss ++ [s]) c' (es ++ es') := by
  have hss : ss <+: ss ++ [s] := List.prefix_append _ _
  have hq := hs.quiet
  have ht' := ht.mono hss
  have ha' := ha.mono hss
  have hgo' (hg : t.GoesOn) := (hgo hg).quiet hq
  have hp' : c.peerClosed = (tallied settings.limits (ss ++ [s])).peerClosed := by
    rw [tallied_concat settings.limits ss hq.data hq.ne_readEnd]
    exact hp
  cases hs with
  | @cut reply e he =>
      rw [List.append_nil]
      refine .finished log sent _ rfl ha' (.cut t sent _ ht' ⟨w.pending, hsent⟩ ?_)
      exact ⟨.write reply, List.mem_append_right _ (List.mem_singleton.2 rfl),
        isFault_of_offer he⟩
  | @part rest reply taken hoffer =>
      refine .writing log t (sent ++ taken) rest rfl ht' (ha'.wrote taken) ?_ hp' hclose
        (fun hg => (hgo' hg).aside c.timer c.now _)
      rw [List.append_assoc, Writer.pending_of_offer hoffer, hsent]
  | @last rest reply taken hoffer hdone =>
      have hall : sent ++ taken = t.reply := by
        rw [← hsent, ← Writer.pending_of_offer hoffer, List.isEmpty_iff.1 hdone, List.append_nil]
      have hwhole := ha'.wrote taken
      rw [hall] at hwhole
      exact ledger_afterWrite hwhole ht' hp' hclose hgo'
  | tick ms =>
      rw [List.append_nil]
      exact .writing log t sent w hw ht' ha' hsent hp' hclose
        (fun hg => (hgo' hg).aside c.timer (c.now + ms) _)

/-- Every stimulus that is attended to keeps the ledger. -/
theorem ledger_step (h : Ledger settings ss c es) {s : Stimulus} {c' : Connection}
    {es' : List Effect} (hs : c.step s = some (c', es')) :
    Ledger settings (ss ++ [s]) c' (es ++ es') := by
  cases h with
  | waiting log hstage htracks ha =>
      exact ledger_of_waiting htracks ha hstage (attends_of_waiting hstage hs)
  | writing log t sent w hstage ht ha hsent hp hclose hgo =>
      exact ledger_of_writing ha ht hsent hp hclose hgo hstage (attends_of_writing hstage hs)
  | finished log part ending hstage => cases (step_of_over hstage s).symm.trans hs
  | unwound log hstage => cases (step_of_unwound hstage s).symm.trans hs

/-- Every run keeps a ledger. -/
theorem ledger {settings : Settings} {ss : List Stimulus} {c : Connection} {es : List Effect}
    (h : (Connection.start settings).run ss = some (c, es)) : Ledger settings ss c es :=
  run_induction (P := Ledger settings) (ledger_start settings)
    (fun _ _ _ _ _ _ _ hl hs => ledger_step hl hs) h

/-- A connection that waits has answered as many requests as have been
taken up, and goes on. -/
theorem tracks_of_waiting {settings : Settings} {ss : List Stimulus} {c : Connection}
    {es : List Effect} (h : (Connection.start settings).run ss = some (c, es))
    (hw : c.stage = .waiting) : Tracks settings ss (answers ss) c := by
  cases ledger h with
  | waiting log hstage htracks => exact htracks.answers_eq ▸ htracks
  | writing log t sent w hstage => cases hw.symm.trans hstage
  | finished log part ending hstage => cases hw.symm.trans hstage
  | unwound log hstage => cases hw.symm.trans hstage

end Connection

end WireHttp
