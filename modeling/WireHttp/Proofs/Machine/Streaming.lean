/-
A response that is given piece by piece is the response sent whole: the
same bytes and the same machine after it, or the same refusal
(`streamResponse_eq`). For a piece moves nothing but the count of what has
been written, and pieces that fit together move it as far as all of them
at once (`sendPieces_eq`).

The count is kept honestly. While a response is under way, whatever else
arrives and is polled in between, `Accounts` says how it stands: with the
count at what has been given, and on the wire just that or nothing; or
past its length, with nothing more to follow. So no more goes on the wire
than was declared, and the response can be finished with exactly that
(`streamed_as_whole`).
-/
import WireHttp.Proofs.Machine.Writing

namespace WireHttp

/-- What a call gives of the body of the response under way. -/
def Call.given : Call → Bytes
  | sendBody data => data
  | receive _ | receiveEof | poll | startResponse .. | finishResponse | sendResponse _ => []

/-- Whether a call neither begins a response nor finishes one. -/
def Call.keepsOpen : Call → Bool
  | receive _ | receiveEof | poll | sendBody _ => true
  | startResponse .. | finishResponse | sendResponse _ => false

/-- The bytes that a call hands out for the wire. -/
def Answer.bytes : Answer → Bytes
  | sent (.ok bytes) => bytes
  | nothing | polled _ | sent (.error _) | finished _ => []

/-- The bytes that the calls of a history have handed out. -/
def handed (h : List (Call × Answer)) : Bytes :=
  h.flatMap (·.2.bytes)

theorem handed_snoc (h : List (Call × Answer)) (c : Call) (a : Answer) :
    handed (h ++ [(c, a)]) = handed h ++ a.bytes := by
  unfold handed
  rw [List.flatMap_append, List.flatMap_singleton]

namespace Machine

variable {m : Machine} {declared written : Nat} {suppress close : Bool}

-- ======================================================= piece by piece

/-- Gives a body in pieces, up to the first that is refused. -/
def sendPieces (m : Machine) : List Bytes → Except Violation Bytes × Machine
  | [] => (.ok [], m)
  | piece :: pieces =>
    match m.sendBody piece with
    | (.error fault, m) => (.error fault, m)
    | (.ok bytes, m) =>
      match m.sendPieces pieces with
      | (.error fault, m) => (.error fault, m)
      | (.ok rest, m) => (.ok (bytes ++ rest), m)

/-- Starts a response, gives its body in pieces and finishes it, up to the
first call that is refused. -/
def streamResponse (m : Machine) (status : Status) (headers : Headers) (length : Nat)
    (pieces : List Bytes) : Except Violation Bytes × Machine :=
  match m.startResponse status headers length with
  | (.error fault, m) => (.error fault, m)
  | (.ok head, m) =>
    match m.sendPieces pieces with
    | (.error fault, m) => (.error fault, m)
    | (.ok body, m) =>
      match m.finishResponse with
      | (.error fault, m) => (.error fault, m)
      | (.ok (), m) => (.ok (head ++ body), m)

/-- Pieces that fit are taken like all of them at once. -/
theorem sendPieces_eq {pieces : List Bytes}
    (ho : m.outbound = .sending declared written suppress close)
    (hle : written + pieces.flatten.length ≤ declared) :
    m.sendPieces pieces = m.sendBody pieces.flatten := by
  rw [sendBody_of_room ho hle]
  induction pieces generalizing m written with
  | nil =>
      unfold sendPieces
      rw [List.flatten_nil, ite_self, List.length_nil, Nat.add_zero, ← ho]
  | cons piece pieces ih =>
      rw [List.flatten_cons, List.length_append, ← Nat.add_assoc] at hle ⊢
      unfold sendPieces
      rw [sendBody_of_room ho (Nat.le_trans (Nat.le_add_right _ _) hle)]
      dsimp only
      rw [ih rfl hle]
      cases suppress with
      | true => rfl
      | false => rfl

/-- A response is begun with all of its body to come, for what is owed
first. -/
theorem sending_of_startResponse {status : Status} {headers : Headers} {length : Nat}
    {head : Bytes} (h : (m.startResponse status headers length).1 = .ok head) :
    ∃ x close, m.owed.head? = some x ∧
      (m.startResponse status headers length).2.outbound
        = .sending length 0 x.headOnly close := by
  obtain ⟨ho, hf, x, rest, hx⟩ := due_of_startResponse h
  rw [startResponse_of_fit ho hx hf rfl, hx]
  exact ⟨x, _, rfl, rfl⟩

/-- A response given piece by piece is the response sent whole. -/
theorem streamResponse_eq (m : Machine) (status : Status) (headers : Headers)
    (pieces : List Bytes) :
    m.streamResponse status headers pieces.flatten.length pieces
      = m.sendResponse ⟨status, headers, pieces.flatten⟩ := by
  have hsending (head : Bytes)
      (hok : (m.startResponse status headers pieces.flatten.length).1 = .ok head) :=
    sending_of_startResponse hok
  unfold streamResponse sendResponse
  dsimp only
  generalize m.startResponse status headers pieces.flatten.length = started at hsending
  obtain ⟨answer, n⟩ := started
  cases answer with
  | error fault => rfl
  | ok head =>
      obtain ⟨x, close, -, ho⟩ := hsending head rfl
      dsimp only at ho ⊢
      have hfits : 0 + pieces.flatten.length ≤ pieces.flatten.length :=
        Nat.le_of_eq (Nat.zero_add _)
      have hbody := sendPieces_eq ho hfits
      generalize n.sendPieces pieces = given at hbody ⊢
      subst hbody
      rfl

-- ============================================================= accounts

/-- How a response of `declared` bytes stands once `given` has been given
of its body, in calls that are in the log. -/
inductive Accounts (declared : Nat) (suppress close : Bool) (given : Bytes)
    (log : List (Call × Answer)) (m : Machine) : Prop
  | within : m.outbound = .sending declared given.length suppress close →
      given.length ≤ declared → handed log = (if suppress then [] else given) →
      (∀ entry ∈ log, entry.2.violation? = none) → Accounts declared suppress close given log m
  | overrun : m.outbound = .closed → declared < given.length → (handed log).length ≤ declared →
      Accounts declared suppress close given log m

variable {given : Bytes} {log : List (Call × Answer)}

/-- A call that gives nothing and hands nothing out leaves the account as
it is. -/
theorem Accounts.idle {n : Machine} {c : Call} {a : Answer}
    (h : Accounts declared suppress close given log m) (ho : n.outbound = m.outbound)
    (hb : a.bytes = []) (hv : a.violation? = none) :
    Accounts declared suppress close given (log ++ [(c, a)]) n := by
  have hsame : handed (log ++ [(c, a)]) = handed log := by
    rw [handed_snoc, hb, List.append_nil]
  cases h with
  | within hs hle hhanded hlog =>
      refine .within (ho.trans hs) hle (hsame.trans hhanded) fun entry hentry => ?_
      rcases List.mem_append.1 hentry with hold | hnew
      · exact hlog entry hold
      · rw [List.mem_singleton.1 hnew]
        exact hv
  | overrun hc hlt hhanded => exact .overrun (ho.trans hc) hlt (hsame ▸ hhanded)

/-- What a further piece does to the account: it is added, or it is the
one that takes it past its end. -/
theorem Accounts.sendBody (h : Accounts declared suppress close given log m) (data : Bytes) :
    Accounts declared suppress close (given ++ data)
      (log ++ [(.sendBody data, .sent (m.sendBody data).1)]) (m.sendBody data).2 := by
  cases h with
  | within hs hle hhanded hlog =>
      rcases Nat.lt_or_ge declared (given.length + data.length) with hlt | hroom
      · rw [sendBody_of_overrun hs hlt]
        refine .overrun rfl (List.length_append ▸ hlt) ?_
        rw [handed_snoc, hhanded]
        cases suppress with
        | true => exact Nat.zero_le _
        | false => simpa [Answer.bytes] using hle
      · rw [sendBody_of_room hs hroom]
        refine .within ?_ (List.length_append ▸ hroom) ?_ fun entry hentry => ?_
        · rw [List.length_append]
        · rw [handed_snoc, hhanded]
          cases suppress with
          | true => rfl
          | false => rfl
        · rcases List.mem_append.1 hentry with hold | hnew
          · exact hlog entry hold
          · rw [List.mem_singleton.1 hnew]
            rfl
  | overrun hc hlt hhanded =>
      have hrefused : m.sendBody data = (.error .noResponseInProgress, m) := by
        unfold Machine.sendBody
        rw [hc]
      rw [hrefused]
      refine .overrun hc ?_ ?_
      · rw [List.length_append]
        exact Nat.lt_add_right _ hlt
      · rw [handed_snoc]
        simpa [Answer.bytes] using hhanded

theorem Accounts.call (h : Accounts declared suppress close given log m) (hv : m.Valid)
    {c : Call} (hc : c.keepsOpen = true) :
    Accounts declared suppress close (given ++ c.given) (log ++ [(c, (m.call c).1)])
      (m.call c).2 := by
  cases c with
  | receive data =>
      rw [Call.given, List.append_nil]
      exact h.idle (m.sameFrame_receive data).outbound rfl rfl
  | receiveEof =>
      rw [Call.given, List.append_nil]
      exact h.idle rfl rfl rfl
  | poll =>
      rw [Call.given, List.append_nil]
      exact h.idle (poll_frame hv).outbound rfl rfl
  | sendBody data => exact h.sendBody data
  | startResponse | finishResponse | sendResponse => cases hc

/-- The account is right all the while. -/
theorem accounts_calls (hv : m.Valid) (ho : m.outbound = .sending declared 0 suppress close)
    {during : List Call} (hd : ∀ c ∈ during, c.keepsOpen = true) :
    Accounts declared suppress close (during.flatMap Call.given) (m.history during)
      (m.calls during).2 := by
  induction during using List.reverseRecOn with
  | nil => exact .within ho (Nat.zero_le _) (ite_self _).symm nofun
  | append_singleton during c ih =>
      have hbefore := ih fun d hd' => hd d (List.mem_append_left _ hd')
      rw [List.flatMap_append, List.flatMap_singleton, history_concat, calls_concat]
      exact hbefore.call (hv.calls during) (hd c (List.mem_append_right _ List.mem_cons_self))

/-- However a machine has been called: to give a response piece by piece
is to send it whole, with the same bytes or the same refusal, and the same
machine after it. And once a response has been begun, with any calls in
between that neither begin one nor finish one, no more of its body goes on
the wire than was declared. As long as no more is given either, all of it
goes there, or none in answer to a `HEAD`, and nothing is refused; a piece
that would take it past its length is, and the response can be finished
just if its length has been given exactly. -/
theorem streamed_as_whole (limits : Limits) (cs : List Call) :
    let m := ((start limits).calls cs).2
    (∀ status headers (pieces : List Bytes),
      m.streamResponse status headers pieces.flatten.length pieces
        = m.sendResponse ⟨status, headers, pieces.flatten⟩) ∧
    ∀ status headers declared head, (m.startResponse status headers declared).1 = .ok head →
      ∀ during : List Call, (∀ c ∈ during, c.keepsOpen = true) →
        let begun := (m.startResponse status headers declared).2
        let now := (begun.calls during).2
        let given := during.flatMap Call.given
        (handed (begun.history during)).length ≤ declared ∧
        (given.length ≤ declared →
          (∃ x, m.owed.head? = some x ∧
            handed (begun.history during) = if x.headOnly then [] else given) ∧
          (∀ entry ∈ begun.history during, entry.2.violation? = none) ∧
          (∀ data, declared < given.length + data.length →
            (now.sendBody data).1
              = .error (.bodyOverrun declared (given.length + data.length))) ∧
          (now.finishResponse.1 = .ok () ↔ given.length = declared)) := by
  intro m
  refine ⟨m.streamResponse_eq, ?_⟩
  intro status headers declared head hok during hd begun now given
  have hvalid : begun.Valid :=
    ((Valid.start limits).calls cs).call (.startResponse status headers declared)
  obtain ⟨x, close, hx, ho⟩ := sending_of_startResponse hok
  cases accounts_calls hvalid ho hd with
  | overrun hc hlt hhanded => exact ⟨hhanded, fun hle => absurd hlt (Nat.not_lt.2 hle)⟩
  | within hs hle hhanded hlog =>
      refine ⟨?_, fun _ => ⟨⟨x, hx, hhanded⟩, hlog, fun data hlt => ?_, ?_⟩⟩
      · rw [hhanded]
        cases x.headOnly with
        | true => exact Nat.zero_le _
        | false => exact hle
      · rw [sendBody_of_overrun hs hlt]
      · by_cases hwhole : given.length = declared
        · subst hwhole
          rw [finishResponse_of_whole hs]
          exact ⟨fun _ => rfl, fun _ => rfl⟩
        · rw [finishResponse_of_short hs hwhole]
          exact ⟨nofun, fun h => absurd h hwhole⟩

/-- Two of three bytes have been given, in two pieces, when the next
request begins to arrive: two more are too many, and to finish is too
early. -/
theorem streamed_as_whole_short :
    ∃ cs during : List Call,
      let m := ((start {}).calls cs).2
      let begun := (m.startResponse .ok [] 3).2
      let now := (begun.calls during).2
      m.streamResponse .ok [] 3 [[1], [], [2, 3]] = m.sendResponse ⟨.ok, [], [1, 2, 3]⟩ ∧
        handed (begun.history during) = [1, 2] ∧
        (∀ entry ∈ begun.history during, entry.2.violation? = none) ∧
        (now.sendBody [3, 4]).1 = .error (.bodyOverrun 3 4) ∧
        now.finishResponse.1 ≠ .ok () := by
  let cs : List Call :=
    [.receive (Text.Utf8.encode "GET / HTTP/1.1\r\n\r\n"), .poll, .poll]
  let during : List Call := [.sendBody [1], .receive [71], .poll, .sendBody [2]]
  have hrun : ∃ head,
      (((start {}).calls cs).2.startResponse .ok [] 3).1 = .ok head ∧
      handed ((((start {}).calls cs).2.startResponse .ok [] 3).2.history during) = [1, 2] :=
    ⟨_, rfl, by decide +kernel⟩
  obtain ⟨head, hok, hhanded⟩ := hrun
  obtain ⟨hstream, hbegun⟩ := streamed_as_whole {} cs
  obtain ⟨-, hopen⟩ := hbegun .ok [] 3 head hok during (by decide)
  obtain ⟨-, hlog, hover, hfinish⟩ := hopen (by decide)
  refine ⟨cs, during, hstream .ok [] [[1], [], [2, 3]], hhanded, hlog, hover [3, 4] (by decide), ?_⟩
  rw [Ne, hfinish]
  decide

end Machine

end WireHttp
