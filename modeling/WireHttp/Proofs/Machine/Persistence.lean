/-
Peer and machine agree whether the connection goes on. How a response is
framed is decided as it begins, and the decision shows twice: in the
options of its `Connection` headers, which the peer reads by the rule for
its version, and in what is left of the machine when the response has been
finished. Both come to the same (`keepAlive_framed`).

What was supplied may list options of its own, several times and
contradicting each other. A `close` among them outweighs all else, for the
peer as for the machine, which then ends the connection; any others are
completed by the one option that is missing.
-/
import WireHttp.Proofs.Machine.Pairing

namespace WireHttp

/-- The version by whose rule the answer to an item is read: that of the
request, and the server's own if the head could not be read. -/
def Item.version : Item → Version
  | request r => r.version
  | rejected _ => .http11

theorem Item.http10_eq_true_iff (item : Item) :
    item.exchange.http10 = true ↔ item.version = .http10 := by
  cases item with
  | request r => exact beq_iff_eq
  | rejected e => exact ⟨nofun, nofun⟩

namespace Machine

/-- The headers with which `m` begins an answer to an item. -/
def framed (m : Machine) (item : Item) (status : Status) (headers : Headers) (length : Nat) :
    Headers :=
  outboundHeaders status headers length (m.closesAfter item.exchange headers)
    item.exchange.http10

theorem closesAfter_of_asksClose (m : Machine) (x : Exchange) {headers : Headers}
    (h : headers.asksClose = true) : m.closesAfter x headers = true := by
  unfold closesAfter
  rw [h, Bool.or_true]

/-- What the peer makes of the headers is what the machine has decided. -/
theorem keepAlive_framed (m : Machine) (item : Item) (status : Status) (headers : Headers)
    (length : Nat) :
    (m.framed item status headers length).keepAlive item.version
      = !m.closesAfter item.exchange headers :=
  keepAlive_outboundHeaders status length (m.closesAfter_of_asksClose item.exchange)
    item.http10_eq_true_iff

/-- However a machine is called, whenever a response can be begun it is
begun for the oldest item that is owed one, with the status that was given
and headers that start with those that were given. And when it has been
finished, whatever else is called in between, nothing more may be written
just if the peer takes those headers for the end of the connection. It is
the same for a response that is sent whole. -/
theorem persistence_agreed (limits : Limits) (cs : List Call) :
    let h := (start limits).history cs
    let m := ((start limits).calls cs).2
    (∀ status headers length head, (m.startResponse status headers length).1 = .ok head →
      ∃ item, (noted h).items[h.countP begins]? = some item ∧
        let out := m.framed item status headers length
        headers <+: out ∧ head = renderHead status out ∧
        ∀ during, (∀ e ∈ (m.startResponse status headers length).2.history during,
            begins e = false) →
          let n := ((m.startResponse status headers length).2.calls during).2
          n.finishResponse.1 = .ok () →
            (out.keepAlive item.version = false ↔ n.finishResponse.2.isWriteClosed = true)) ∧
    ∀ r bytes, (m.sendResponse r).1 = .ok bytes →
      ∃ item, (noted h).items[h.countP begins]? = some item ∧
        let out := m.framed item r.status r.headers r.body.length
        r.headers <+: out ∧ renderHead r.status out <+: bytes ∧
          (out.keepAlive item.version = false ↔ (m.sendResponse r).2.isWriteClosed = true) := by
  obtain ⟨hp, -⟩ := paired_calls limits cs
  dsimp only
  generalize (start limits).history cs = h at hp
  generalize ((start limits).calls cs).2 = m at hp
  have hgiven (item : Item) (status : Status) (headers : Headers) (length : Nat) :
      headers <+: m.framed item status headers length := by
    unfold framed
    rw [outboundHeaders_eq]
    exact List.prefix_append _ _
  constructor
  · intro status headers length head hok
    obtain ⟨ho, hf, x, rest, hx⟩ := due_of_startResponse hok
    obtain ⟨item, hi, rfl⟩ := hp.first hx
    have hv := hp.valid.call (.startResponse status headers length)
    have hbegun : Bound (m.startResponse status headers length).2 item.exchange.headOnly
        (m.closesAfter item.exchange headers) := by
      rw [startResponse_of_fit ho hx hf rfl]
      intro declared written s c hs
      cases hs
      exact ⟨rfl, rfl⟩
    rw [startResponse_of_fit ho hx hf rfl] at hok
    refine ⟨item, hi, hgiven item status headers length, (Except.ok.inj hok).symm, ?_⟩
    intro during hb hfinish
    obtain ⟨hv', hbound⟩ := hbegun.calls hv hb
    rw [keepAlive_framed, hbound.finishResponse hv' hfinish, Bool.not_eq_false']
  · intro r bytes hok
    obtain ⟨ho, hf, x, rest, hx⟩ := due_of_sendResponse hok
    obtain ⟨item, hi, rfl⟩ := hp.first hx
    rw [sendResponse_of_fit ho hx hf rfl] at hok ⊢
    refine ⟨item, hi, hgiven item r.status r.headers r.body.length, ?_, ?_⟩
    · rw [← Except.ok.inj hok]
      exact List.prefix_append _ _
    · rw [keepAlive_framed, Bool.not_eq_false']
      cases m.closesAfter item.exchange r.headers with
      | true => exact ⟨fun _ => rfl, fun _ => rfl⟩
      | false => simp [isWriteClosed, served, ho]

/-- A client of version 1.0 that asks to keep the connection is told so
among headers that speak of something else, and the connection goes on. -/
theorem persistence_agreed_http10 :
    ∃ (cs : List Call) (during : List Call) (item : Item) (out : Headers),
      let m := ((start {}).calls cs).2
      let n := ((m.startResponse .ok [⟨"Connection", "upgrade, x"⟩] 1).2.calls during).2
      (noted ((start {}).history cs)).items[0]? = some item ∧ item.version = .http10 ∧
        out = m.framed item .ok [⟨"Connection", "upgrade, x"⟩] 1 ∧
        n.finishResponse.2.isWriteClosed = false ∧ out.keepAlive item.version = true := by
  have hrun : ∃ cs during : List Call,
      let m := ((start {}).calls cs).2
      let started := m.startResponse .ok [⟨"Connection", "upgrade, x"⟩] 1
      let n := (started.2.calls during).2
      ((start {}).history cs).countP begins = 0 ∧
        ((noted ((start {}).history cs)).items[0]?.map Item.version = some .http10) ∧
        started.1.isOk = true ∧ (∀ e ∈ started.2.history during, begins e = false) ∧
        n.finishResponse.1 = .ok () ∧ n.finishResponse.2.isWriteClosed = false :=
    ⟨[.receive (Text.Utf8.encode "GET / HTTP/1.0\r\nConnection: keep-alive\r\n\r\n"),
        .poll, .poll],
      [.receive [71], .sendBody [97], .poll], by decide +kernel⟩
  obtain ⟨cs, during, hbegins, hitem, hstart, hb, hfinish, hopen⟩ := hrun
  obtain ⟨hstarted, -⟩ := persistence_agreed {} cs
  cases hhead : (((start {}).calls cs).2.startResponse .ok [⟨"Connection", "upgrade, x"⟩] 1).1 with
  | error v =>
      rw [hhead] at hstart
      cases hstart
  | ok head =>
      obtain ⟨item, hi, -, -, hduring⟩ := hstarted _ _ _ _ hhead
      have hagree := hduring during hb hfinish
      rw [hbegins] at hi
      rw [hi] at hitem
      refine ⟨cs, during, item, _, hi, Option.some.inj hitem, rfl, hopen, ?_⟩
      rw [← Bool.not_eq_false]
      intro hclose
      cases hopen.symm.trans (hagree.1 hclose)

end Machine

end WireHttp
