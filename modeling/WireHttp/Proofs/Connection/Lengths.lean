/-
Two readers of one length. The length of a body is read twice: strictly,
from all the headers that declare it, to tell where the body ends in the
stream; and leniently, from the first of them, by whoever is handed the
request. A stream in which the two differ would be cut in one way and
understood in another.

They never do (`lengths_agree`). Whatever the strict reading lets pass is
a digit string in every one of the headers, and all are of one number, so
nothing is left for the lenient one to be lenient about. And the body that
is handed over is cut to that length, since it lies in the stream after
its head (`Holds`).
-/
import WireHttp.Proofs.Connection.Handover
import WireHttp.Proofs.Head.Length

namespace WireHttp

/-- A request with the headers of a head that was read declares what the
head does. -/
theorem Request.contentLength_of_read {limits : Limits} {buffer : Bytes} {head : Head}
    {consumed : Nat} (hr : Head.read limits buffer = .ok (head, consumed)) {r : Request}
    (h : r.headers = head.headers) : r.contentLength = head.contentLength := by
  obtain ⟨-, -, -, hwell⟩ := Head.spelledBy_of_read hr
  have htell : r.headers.Tell head.contentLength := h ▸ hwell.length
  exact r.contentLength_of_tell htell
    (Nat.lt_of_le_of_lt hwell.body_le limits.maxBody.toNat_lt)

/-- Each request that a stream holds has a body as long as it declares. -/
theorem Holds.contentLength_eq {limits : Limits} {bs rest : Bytes} {requests : List Request}
    (h : Holds limits bs requests rest) : ∀ r ∈ requests, r.contentLength = r.body.length := by
  induction h with
  | nil => exact nofun
  | @cons bs head consumed body next rest requests hr hb hl hk h ih =>
      rw [List.forall_mem_cons]
      have hfirst : (head.request body).contentLength = head.contentLength :=
        Request.contentLength_of_read hr rfl
      exact ⟨hfirst.trans hl.symm, ih⟩

/-- The requests that are handed over lie in the stream that was read. -/
theorem Connection.holds_called {settings : Settings} {ss : List Stimulus} {c : Connection}
    {es : List Effect} (h : (Connection.start settings).run ss = some (c, es)) :
    ∃ requests rest, Holds settings.limits (received ss) requests rest ∧
      called es <+: requests := by
  obtain ⟨rest, hholds⟩ := holds_tally settings.limits (received ss) (ended ss)
  refine ⟨(tallied settings.limits ss).requests, rest, hholds, ?_⟩
  cases Connection.handed h with
  | going hg =>
      have hfirst := hg.first
      rwa [hg.noted] at hfirst
  | stopped _ hfirst hnoted => rwa [hnoted] at hfirst

/-- A request with the head that was read from the front of a buffer, and
whatever has arrived of its body, declares by the first of its headers the
length by which it is framed. And every request that a connection hands
over to be answered has a body of the length that it declares. -/
theorem lengths_agree :
    (∀ (limits : Limits) (buffer : Bytes) (a : Assembly) (consumed : Nat),
      Head.read limits buffer = .ok (a.head, consumed) →
        a.request.contentLength = a.head.contentLength) ∧
    ∀ (settings : Settings) (ss : List Stimulus) (c : Connection) (es : List Effect),
      (Connection.start settings).run ss = some (c, es) →
        ∀ r ∈ called es, r.contentLength = r.body.length := by
  refine ⟨fun limits buffer a consumed hr => Request.contentLength_of_read hr rfl, ?_⟩
  intro settings ss c es h r hr
  obtain ⟨requests, rest, hholds, hcalled⟩ := Connection.holds_called h
  exact hholds.contentLength_eq r (hcalled.subset hr)

/-- Two headers declare a body of two bytes in different spellings. The
first of them is read by itself and says two; and in a stream where
another request follows, the two bytes are the body. -/
theorem lengths_agree_spelled_twice :
    (∃ (a : Assembly) (consumed : Nat),
      Head.read {} (Text.Utf8.encode
          "PUT / HTTP/1.1\r\ncontent-LENGTH:\t002\r\nContent-Length: 2 \r\n\r\n")
        = .ok (a.head, consumed) ∧
      a.body = [71] ∧ a.request.contentLength = 2) ∧
    ∃ (ss : List Stimulus) (c : Connection) (es : List Effect),
      (Connection.start {}).run ss = some (c, es) ∧
        (called es).map (fun r => (r.headers.length, r.body)) = [(2, [71, 69]), (0, [])] ∧
        ∀ r ∈ called es, r.contentLength = r.body.length := by
  obtain ⟨hheads, hbodies⟩ := lengths_agree
  constructor
  · let a : Assembly :=
      ⟨⟨.put, "/", .http11, [⟨"content-LENGTH", "002"⟩, ⟨"Content-Length", "2"⟩], 2⟩, [[71]]⟩
    have hread : Head.read {} (Text.Utf8.encode
        "PUT / HTTP/1.1\r\ncontent-LENGTH:\t002\r\nContent-Length: 2 \r\n\r\n")
          = .ok (a.head, 59) := by
      decide +kernel
    exact ⟨a, 59, hread, rfl, hheads _ _ a 59 hread⟩
  · have hrun : ((Connection.start {}).run
        [.read (Text.Utf8.encode
            "PUT / HTTP/1.1\r\ncontent-LENGTH:\t002\r\nContent-Length: 2 \r\n"),
          .read (Text.Utf8.encode "\r\nGEGET / HTTP/1.1\r\n\r\n"), .call, .call]).map
        (fun last => (called last.2).map fun r => (r.headers.length, r.body))
          = some [(2, [71, 69]), (0, [])] := by
      decide +kernel
    obtain ⟨⟨c, es⟩, hrun, hcalled⟩ := Option.map_eq_some_iff.1 hrun
    exact ⟨_, c, es, hrun, hcalled, hbodies _ _ c es hrun⟩

end WireHttp
