/-
What is sent in answer to a request. A response that fits is written in
one piece, and the bytes depend on the machine only through what is owed
first and whether the connection ends with it (`sendResponse_of_fit`);
one that does not fit ends the connection and writes nothing. It has a
defect of its own (`isDefect_of_headFault?`), which to ask for the close
neither adds nor removes (`Response.fault?_withClose`).

The answers that the connection gives on its own account always fit
(`fault?_ofStatus`).
-/
import WireHttp.Head.Basic
import WireHttp.Machine.Outbound

namespace WireHttp

/-- The bytes of a response: the head with the core's own headers, and
the body unless only the head was asked for. -/
def Exchange.render (x : Exchange) (r : Response) (close : Bool) : Bytes :=
  renderHead r.status (outboundHeaders r.status r.headers r.body.length close x.http10)
    ++ if x.headOnly then [] else r.body

/-- What is wrong with a response that cannot be sent. -/
def Response.fault? (r : Response) : Option Violation :=
  headFault? r.status r.headers r.body.length

/-- Whether a violation is a defect of the response as it was supplied. -/
def Violation.isDefect : Violation → Bool
  | lengthMismatch .. | invalidContentLength _ | interimStatus _ | bodyNotAllowed _
  | unsupportedTransferEncoding _ | invalidHeader _ => true
  | bodyOverrun .. | noPendingRequest | responseInProgress | noResponseInProgress | closed => false

theorem Header.isDefect_of_fault? {length : Nat} {header : Header} {v : Violation}
    (h : header.fault? length = some v) : v.isDefect = true := by
  unfold Header.fault? at h
  split at h
  · cases h
    rfl
  · split at h
    · cases h
      rfl
    · split at h
      · split at h
        · cases h
          rfl
        · split at h
          · cases h
          · cases h
            rfl
      · cases h

/-- A head that is refused is refused for a defect of its own. -/
theorem isDefect_of_headFault? {status : Status} {headers : Headers} {length : Nat}
    {v : Violation} (h : headFault? status headers length = some v) : v.isDefect = true := by
  unfold headFault? at h
  split at h
  · cases h
    rfl
  · split at h
    · next fault hf =>
      obtain ⟨header, -, hfault⟩ := List.exists_of_findSome?_eq_some hf
      cases h
      exact Header.isDefect_of_fault? hfault
    · split at h
      · cases h
        rfl
      · cases h

/-- To ask for the close neither breaks a response nor mends one. -/
theorem Response.fault?_withClose (r : Response) : r.withClose.fault? = r.fault? := by
  have hadded : Header.fault? r.body.length ⟨"connection", "close"⟩ = none := by
    unfold Header.fault?
    rw [if_neg (by decide), if_neg (by decide), if_neg (by decide)]
  unfold withClose
  split
  · rfl
  · unfold fault? headFault?
    dsimp only
    rw [List.findSome?_append, List.findSome?_singleton, hadded, Option.or_none]

namespace Machine

/-- The machine once the oldest `n` of the owed requests are answered. -/
def served (m : Machine) (n : Nat) : Machine :=
  { m with owed := m.owed.drop n }

theorem startResponse_of_fault {m : Machine} {x : Exchange} {rest : List Exchange}
    {status : Status} {headers : Headers} {length : Nat} {v : Violation}
    (ho : m.outbound = .idle) (hx : m.owed = x :: rest)
    (hf : headFault? status headers length = some v) :
    m.startResponse status headers length = (.error v, m.failOutbound) := by
  unfold startResponse
  rw [ho, hx]
  dsimp only
  rw [hf]

theorem startResponse_of_fit {m : Machine} {x : Exchange} {rest : List Exchange}
    {status : Status} {headers : Headers} {length : Nat} {close : Bool}
    (ho : m.outbound = .idle) (hx : m.owed = x :: rest)
    (hf : headFault? status headers length = none) (hc : m.closesAfter x headers = close) :
    m.startResponse status headers length =
      (.ok (renderHead status (outboundHeaders status headers length close x.http10)),
        { m with
          owed := rest
          mustClose := m.mustClose || close
          outbound := .sending length 0 x.headOnly close }) := by
  unfold startResponse
  rw [ho, hx]
  dsimp only
  rw [hf, hc]

/-- A response is begun only if one is due, and if its head fits. -/
theorem due_of_startResponse {m : Machine} {status : Status} {headers : Headers} {length : Nat}
    {head : Bytes} (h : (m.startResponse status headers length).1 = .ok head) :
    m.outbound = .idle ∧ headFault? status headers length = none ∧
      ∃ x rest, m.owed = x :: rest := by
  unfold startResponse at h
  split at h
  · cases h
  · cases h
  · cases h
  · next x rest ho hx =>
    split at h
    · cases h
    · next hf => exact ⟨ho, hf, x, rest, hx⟩

theorem sendBody_of_room {m : Machine} {data : Bytes} {declared written : Nat}
    {suppress close : Bool} (ho : m.outbound = .sending declared written suppress close)
    (hle : written + data.length ≤ declared) :
    m.sendBody data = (.ok (if suppress then [] else data),
      { m with outbound := .sending declared (written + data.length) suppress close }) := by
  unfold sendBody
  rw [ho]
  dsimp only
  rw [if_neg (Nat.not_lt.2 hle)]

theorem sendBody_of_overrun {m : Machine} {data : Bytes} {declared written : Nat}
    {suppress close : Bool} (ho : m.outbound = .sending declared written suppress close)
    (hlt : declared < written + data.length) :
    m.sendBody data = (.error (.bodyOverrun declared (written + data.length)), m.failOutbound) := by
  unfold sendBody
  rw [ho]
  dsimp only
  rw [if_pos hlt]

theorem finishResponse_of_whole {m : Machine} {length : Nat} {suppress close : Bool}
    (ho : m.outbound = .sending length length suppress close) :
    m.finishResponse =
      (.ok (), if close then m.failOutbound else { m with outbound := .idle }) := by
  unfold finishResponse
  rw [ho]
  dsimp only
  rw [if_neg (fun h => h rfl)]
  cases close with
  | true => rfl
  | false => rfl

theorem finishResponse_of_short {m : Machine} {declared written : Nat} {suppress close : Bool}
    (ho : m.outbound = .sending declared written suppress close) (hne : written ≠ declared) :
    m.finishResponse = (.error (.lengthMismatch declared written), m.failOutbound) := by
  unfold finishResponse
  rw [ho]
  dsimp only
  rw [if_pos hne]

/-- A response is sent whole only on the same conditions. -/
theorem due_of_sendResponse {m : Machine} {r : Response} {bytes : Bytes}
    (h : (m.sendResponse r).1 = .ok bytes) :
    m.outbound = .idle ∧ r.fault? = none ∧ ∃ x rest, m.owed = x :: rest := by
  cases hs : m.startResponse r.status r.headers r.body.length with
  | mk answer n =>
      cases answer with
      | error v =>
          unfold sendResponse at h
          rw [hs] at h
          cases h
      | ok head => exact due_of_startResponse (congrArg Prod.fst hs)

/-- A response that does not fit ends the connection. -/
theorem sendResponse_of_fault {m : Machine} {x : Exchange} {rest : List Exchange} {r : Response}
    {v : Violation} (ho : m.outbound = .idle) (hx : m.owed = x :: rest)
    (hf : r.fault? = some v) : m.sendResponse r = (.error v, m.failOutbound) := by
  unfold sendResponse
  rw [startResponse_of_fault ho hx hf]

/-- A response that fits is written whole; the machine is closed with
it, or goes on to the next that is owed. -/
theorem sendResponse_of_fit {m : Machine} {x : Exchange} {rest : List Exchange} {r : Response}
    {close : Bool} (ho : m.outbound = .idle) (hx : m.owed = x :: rest) (hf : r.fault? = none)
    (hc : m.closesAfter x r.headers = close) :
    m.sendResponse r =
      (.ok (x.render r close), if close then (m.served 1).failOutbound else m.served 1) := by
  unfold sendResponse
  rw [startResponse_of_fit ho hx hf hc]
  dsimp only
  rw [sendBody_of_room rfl (Nat.le_of_eq (Nat.zero_add _)), Nat.zero_add]
  dsimp only
  rw [finishResponse_of_whole rfl]
  unfold served Exchange.render
  rw [hx, List.drop_succ_cons, List.drop_zero]
  cases close with
  | true => rfl
  | false =>
      simp only [Bool.or_false, Bool.false_eq_true, if_false]
      rw [← ho]

end Machine

-- ================================================= the core's own answers

/-- The answer to a head that was refused can always be sent. -/
theorem fault?_ofStatus (e : HeadError) : (Response.ofStatus e.status).fault? = none := by
  have h : ∀ s ∈ [Status.badRequest, .headTooLarge, .payloadTooLarge, .notImplemented,
      .versionNotSupported], (Response.ofStatus s).fault? = none := by decide
  apply h
  cases e <;> simp [HeadError.status]

theorem fault?_internalError : Response.internalError.withClose.fault? = none := by
  decide

end WireHttp
