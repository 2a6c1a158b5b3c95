/-
The order of what is written. At every moment of every run the wire holds
the responses to the first items of the stream, each of them whole and
once, and then the start of the response to the next (`written_in_order`).
The moments are those between two stimuli; since a run may stop at any of
them, what holds at its end holds all along.

This is the ledger, read without the connection: what remains is to say
that the bytes of a turn are those which the machine gives for the
response (`Turn.Sent.answers`).
-/
import WireHttp.Proofs.Connection.Ledger

namespace WireHttp

/-- The turn answers the `i`-th item of the stream. Its reaction is the
one that was called for `before` the answer began, and its bytes are what
the machine gave at that moment for the response. -/
structure Turn.Answers (limits : Limits) (ss : List Stimulus) (i : Nat) (t : Turn) : Prop where
  item_eq : (items limits (received ss))[i]? = some t.item
  serialized : ∃ before, before <+: ss ∧ t.item.ReactsWith (returned before) i t.reaction ∧
    ((after limits before i).sendResponse t.reaction.response).1 = .ok t.reply

/-- The items of a longer stream begin with those of a shorter one. -/
theorem items_getElem? {limits : Limits} {a b : Bytes} (h : a <+: b) {i : Nat} {item : Item}
    (hi : (items limits a)[i]? = some item) : (items limits b)[i]? = some item := by
  obtain ⟨ext, rfl⟩ := h
  obtain ⟨more, hmore⟩ := items_mono limits a ext
  rw [← hmore, List.getElem?_append_left (List.getElem?_eq_some_iff.1 hi).1]
  exact hi

theorem Turn.Sent.answers {limits : Limits} {ss : List Stimulus} {i : Nat} {t : Turn}
    (h : t.Sent limits ss i) : t.Answers limits ss i := by
  obtain ⟨before, hb, hdue, hfit⟩ := h
  obtain ⟨rest, howed⟩ := hdue.owed
  refine ⟨items_getElem? (received_mono hb) hdue.item_eq, before, hb, hdue.reacts, ?_⟩
  rw [Machine.sendResponse_of_fit (outbound_after limits before i) howed hfit hdue.close_eq]
  rfl

/-- What is written is the responses to the first items of the stream,
each of them whole, and nothing else. -/
structure WrittenWhole (limits : Limits) (ss : List Stimulus) (es : List Effect)
    (turns : List Turn) : Prop where
  written_eq : written es = turns.flatMap Turn.reply
  answers : ∀ (i : Nat) (t : Turn), turns[i]? = some t → t.Answers limits ss i

theorem Answered.writtenWhole {limits : Limits} {ss : List Stimulus} {es : List Effect}
    {log : List Turn} (h : Answered limits ss es log []) : WrittenWhole limits ss es log :=
  ⟨h.written_eq.trans (List.append_nil _), fun i t ht => (h.turns i t ht).1.answers⟩

/-- A way to end leaves no more than the start of one answer on the wire
after the whole ones. -/
theorem Ends.part {settings : Settings} {ss : List Stimulus} {log : List Turn} {part : Bytes}
    {ending : Ending} (h : Ends settings ss log part ending) :
    part = [] ∨ ∃ t, Turn.Sent settings.limits ss log.length t ∧ part <+: t.reply := by
  cases h with
  | last t ht hl => exact Or.inr ⟨t, ht, List.prefix_refl _⟩
  | cut t part message ht hp hf => exact Or.inr ⟨t, ht, hp⟩
  | _ => exact Or.inl rfl

/-- There are some first items of the stream such that the wire holds
their responses, whole and in order, and of the response to the next item
a prefix, which may be empty. -/
def WrittenInOrder (limits : Limits) (ss : List Stimulus) (es : List Effect) : Prop :=
  ∃ (turns : List Turn) (part : Bytes),
    written es = turns.flatMap Turn.reply ++ part ∧
      (∀ (i : Nat) (t : Turn), turns[i]? = some t → t.Answers limits ss i) ∧
      (part = [] ∨ ∃ t : Turn, t.Answers limits ss turns.length ∧ part <+: t.reply)

/-- At every moment of every run, responses have been written in the
order of the items, whole and once each. -/
theorem written_in_order {settings : Settings} {ss : List Stimulus} {c : Connection}
    {es : List Effect} (h : (Connection.start settings).run ss = some (c, es)) :
    WrittenInOrder settings.limits ss es := by
  have whole {log : List Turn} {part : Bytes} (ha : Answered settings.limits ss es log part) :
      ∀ (i : Nat) (t : Turn), log[i]? = some t → t.Answers settings.limits ss i :=
    fun i t ht => (ha.turns i t ht).1.answers
  cases Connection.ledger h with
  | waiting log hstage htracks ha => exact ⟨log, [], ha.written_eq, whole ha, Or.inl rfl⟩
  | writing log t sent w hstage ht ha hsent =>
      exact ⟨log, sent, ha.written_eq, whole ha, Or.inr ⟨t, ht.answers, w.pending, hsent⟩⟩
  | unwound log _ _ ha => exact ⟨log, [], ha.written_eq, whole ha, Or.inl rfl⟩
  | finished log part ending hstage ha hends =>
      refine ⟨log, part, ha.written_eq, whole ha, ?_⟩
      rcases hends.part with hp | ⟨t, ht, hp⟩
      · exact Or.inl hp
      · exact Or.inr ⟨t, ht.answers, hp⟩

/-- Two requests come back in the wrong order, and the transport takes
the first response, of 65 bytes, in two pieces and 7 bytes of the second. -/
theorem written_in_order_pipelined :
    ∃ (ss : List Stimulus) (c : Connection) (es : List Effect),
      (Connection.start {}).run ss = some (c, es) ∧ (written es).length = 72 ∧
        WrittenInOrder {} ss es := by
  have hrun : ((Connection.start {}).run
      [.read (Text.Utf8.encode "GET /a HTTP/1.1\r\n\r\nGET /b HTTP/1.1\r\n\r\n"), .call, .call,
        .finish 1 (.answered (.ok [98])), .finish 0 (.answered (.ok [97])), .answer,
        .write (.accept 5), .write (.accept 100), .answer, .write (.accept 7)]).map
      (fun last => (written last.2).length) = some 72 := by
    decide +kernel
  obtain ⟨⟨c, es⟩, hrun, hlen⟩ := Option.map_eq_some_iff.1 hrun
  exact ⟨_, c, es, hrun, hlen, written_in_order hrun⟩

end WireHttp
