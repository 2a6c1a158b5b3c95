/-
What the head of a response says of the length of its body.

A length that is sent has been checked leniently, so all that is known of
one that was supplied is that it spells the length with, at most, a plus
sign and white space about it. One that the core adds is a digit string.
So the core would accept the head by its own rule for requests just if the
supplied lengths are digit strings as well (`startResponse_tells_length`).

Under a status that has no body the core adds no length, and nothing is
sent of a body; a length that was supplied is sent all the same
(`sent_without_body`).
-/
import WireHttp.Proofs.Machine.Pairing

namespace WireHttp

open Text.Decimal (isDigits SpellsLoosely)

-- ====================================================== the lines as sent

/-- A length that has passed the check spells the length of the body. -/
theorem Header.Fits.spellsLoosely {length : Nat} {h : Header} (hf : h.Fits length)
    (hn : h.isNamed "Content-Length" = true) : SpellsLoosely h.value.toList length :=
  (Text.Decimal.readWord?_trim_eq_some_iff.1 (hf.length hn)).1

theorem Header.Fits.value_eq {length : Nat} {h : Header} (hf : h.Fits length)
    (hn : h.isNamed "Content-Length" = true) (hd : isDigits h.value.toList = true) :
    Text.Decimal.value h.value.toList = length := by
  have hread := hf.length hn
  rw [Text.Decimal.readWord?_trim_of_isDigits hd] at hread
  exact (Text.Decimal.readDigits?_eq_some_iff.1 hread).2.1

theorem not_isNamed_of_mem_connectionLine {headers : Headers} {close http10 : Bool} {k : Header}
    (h : k ∈ connectionLine headers close http10) : k.isNamed "Content-Length" = false := by
  rcases eq_of_mem_connectionLine h with rfl | rfl
  · decide
  · decide

/-- A length that is sent was supplied, or it is a digit string. -/
theorem isDigits_of_mem_outboundHeaders {status : Status} {headers : Headers} {length : Nat}
    {close http10 : Bool} {k : Header}
    (hk : k ∈ outboundHeaders status headers length close http10)
    (hn : k.isNamed "Content-Length" = true) : k ∈ headers ∨ isDigits k.value.toList = true := by
  rw [outboundHeaders_eq, List.mem_append, List.mem_append] at hk
  rcases hk with hk | hk | hk
  · exact Or.inl hk
  · obtain ⟨-, rfl⟩ := eq_of_mem_lengthLine hk
    rw [Text.Decimal.text, String.toList_ofList]
    exact Or.inr (Text.Decimal.isDigits_digits length)
  · cases hn.symm.trans (not_isNamed_of_mem_connectionLine hk)

/-- The core's own rule reads the length from what is sent just if it reads
every length that was supplied. -/
theorem bodyLength?_outboundHeaders {status : Status} {headers : Headers} {length : Nat}
    (hf : headFault? status headers length = none) (hl : length < Text.Decimal.wordSize)
    (close http10 : Bool) :
    (outboundHeaders status headers length close http10).bodyLength? = some length ↔
      ∀ k ∈ headers, k.isNamed "Content-Length" = true → isDigits k.value.toList = true := by
  obtain ⟨-, hfits, hbody⟩ := fits_of_headFault? hf
  have hall := fits_outboundHeaders status hfits hl close http10
  rw [Headers.bodyLength?_eq_some_iff, and_iff_left hl]
  constructor
  · intro htell k hk hn
    apply (htell.digits k _ hn).1
    rw [outboundHeaders_eq]
    exact List.mem_append_left _ hk
  · intro hdigits
    refine ⟨fun k hk hn => ?_, fun hnone => ?_⟩
    · have hd : isDigits k.value.toList = true :=
        (isDigits_of_mem_outboundHeaders hk hn).elim (fun hm => hdigits k hm hn) id
      exact ⟨hd, (hall k hk).value_eq hn hd⟩
    · apply hbody.resolve_left
      intro ha
      obtain ⟨k, hk, hn⟩ := List.any_eq_true.1 (any_outboundHeaders ha headers length close http10)
      cases hn.symm.trans (hnone k hk)

/-- Under a status that has no body, the lengths that are sent are those
that were supplied. -/
theorem filter_outboundHeaders {status : Status} (hs : status.allowsBody = false)
    (headers : Headers) (length : Nat) (close http10 : Bool) :
    (outboundHeaders status headers length close http10).filter (·.isNamed "Content-Length")
      = headers.filter (·.isNamed "Content-Length") := by
  rw [outboundHeaders_eq, List.filter_append, List.append_right_eq_self, List.filter_eq_nil_iff]
  intro k hk
  rw [List.mem_append] at hk
  rcases hk with hk | hk
  · cases hs.symm.trans (eq_of_mem_lengthLine hk).1
  · exact Bool.eq_false_iff.1 (not_isNamed_of_mem_connectionLine hk)

-- =========================================================== the responses

/-- Bytes that are a head and nothing more, in which the only lengths are
those among `headers`, and these say that there is no body. -/
def BareHead (headers : Headers) (bytes : Bytes) : Prop :=
  ∃ sent, Received.fields? bytes = some (sent, []) ∧
    sent.filter (·.isNamed "Content-Length") = headers.filter (·.isNamed "Content-Length") ∧
    ∀ h ∈ headers, h.isNamed "Content-Length" = true → SpellsLoosely h.value.toList 0

theorem bareHead_renderHead {status : Status} (hs : status.allowsBody = false) {headers : Headers}
    (hf : headFault? status headers 0 = none) (close http10 : Bool) :
    BareHead headers (renderHead status (outboundHeaders status headers 0 close http10)) := by
  obtain ⟨-, hfits, -⟩ := fits_of_headFault? hf
  have hread := fields?_outboundHeaders hf (by decide) close http10
  exact ⟨_, hread, filter_outboundHeaders hs headers 0 close http10,
    fun h hh hn => (hfits h hh).spellsLoosely hn⟩

namespace Machine

variable {m : Machine}

/-- Each length in the head of a response spells that of the body, and is
a digit string unless it was supplied otherwise. So the head tells the
length by the rule for requests just if it was not supplied otherwise. -/
theorem startResponse_tells_length (m : Machine) {status : Status} {headers : Headers}
    {length : Nat} {head : Bytes} (hl : length < Text.Decimal.wordSize)
    (h : (m.startResponse status headers length).1 = .ok head) :
    ∃ sent, Received.fields? head = some (sent, []) ∧
      (∀ k ∈ sent, k.isNamed "Content-Length" = true →
        SpellsLoosely k.value.toList length ∧
          (isDigits k.value.toList = true → Text.Decimal.value k.value.toList = length) ∧
          (k ∈ headers ∨ isDigits k.value.toList = true)) ∧
      (sent.bodyLength? = some length ↔
        ∀ k ∈ headers, k.isNamed "Content-Length" = true → isDigits k.value.toList = true) := by
  obtain ⟨ho, hf, x, rest, hx⟩ := due_of_startResponse h
  obtain ⟨-, hfits, -⟩ := fits_of_headFault? hf
  rw [startResponse_of_fit ho hx hf rfl] at h
  rw [← Except.ok.inj h]
  have hall := fits_outboundHeaders status hfits hl (m.closesAfter x headers) x.http10
  refine ⟨_, fields?_outboundHeaders hf hl _ _, fun k hk hn => ?_,
    bodyLength?_outboundHeaders hf hl _ _⟩
  exact ⟨(hall k hk).spellsLoosely hn, (hall k hk).value_eq hn,
    isDigits_of_mem_outboundHeaders hk hn⟩

/-- A length is supplied with leading zeros. -/
theorem startResponse_tells_length_padded :
    ∃ (m : Machine) (head : Bytes) (sent : Headers),
      (m.startResponse .ok [⟨"Content-Length", "005"⟩] 5).1 = .ok head ∧
        Received.fields? head = some (sent, []) ∧ sent.bodyLength? = some 5 := by
  have hrun : ∃ cs : List Call,
      (((start {}).calls cs).2.startResponse .ok [⟨"Content-Length", "005"⟩] 5).1.toBool
        = true :=
    ⟨[.receive (Text.Utf8.encode "GET / HTTP/1.1\r\n\r\n"), .poll, .poll], by decide +kernel⟩
  obtain ⟨cs, hstart⟩ := hrun
  cases hhead : (((start {}).calls cs).2.startResponse .ok [⟨"Content-Length", "005"⟩] 5).1 with
  | error v =>
      rw [hhead] at hstart
      cases hstart
  | ok head =>
      obtain ⟨sent, hread, -, hrule⟩ :=
        startResponse_tells_length ((start {}).calls cs).2 (by decide) hhead
      exact ⟨((start {}).calls cs).2, head, sent, hhead, hread, hrule.2 (by decide)⟩

/-- A length that is supplied with a plus sign is sent with it, though by
the rule for requests it tells nothing. -/
theorem sign_is_sent :
    let m := ((start {}).calls
      [.receive (Text.Utf8.encode "GET / HTTP/1.1\r\n\r\n"), .poll, .poll]).2
    (m.startResponse .ok [⟨"content-length", "+5"⟩] 5).1.toOption.bind Received.fields?
        = some ([⟨"content-length", "+5"⟩], []) ∧
      Header.isNamed ⟨"content-length", "+5"⟩ "Content-Length" = true ∧
      isDigits "+5".toList = false ∧
      Headers.bodyLength? [⟨"content-length", "+5"⟩] = none := by
  decide +kernel

/-- A response that is begun under a status that has no body is a bare
head, and what may be given as its body is empty until the next one is
begun. -/
theorem startResponse_bare {status : Status} (hs : status.allowsBody = false)
    {headers : Headers} {length : Nat} {head : Bytes}
    (h : (m.startResponse status headers length).1 = .ok head) :
    length = 0 ∧ BareHead headers head ∧
      (m.startResponse status headers length).2.Decided fun declared _ _ => declared = 0 := by
  obtain ⟨ho, hf, x, rest, hx⟩ := due_of_startResponse h
  obtain rfl := length_eq_zero_of_headFault? hs hf
  rw [startResponse_of_fit ho hx hf rfl] at h ⊢
  rw [← Except.ok.inj h]
  refine ⟨rfl, bareHead_renderHead hs hf _ _, ?_⟩
  intro declared written suppress close hsending
  cases hsending
  rfl

theorem sendResponse_bare {r : Response} (hs : r.status.allowsBody = false) {bytes : Bytes}
    (h : (m.sendResponse r).1 = .ok bytes) : r.body = [] ∧ BareHead r.headers bytes := by
  obtain ⟨ho, hf, x, rest, hx⟩ := due_of_sendResponse h
  have hempty : r.body = [] := List.eq_nil_of_length_eq_zero (length_eq_zero_of_headFault? hs hf)
  rw [sendResponse_of_fit ho hx hf rfl] at h
  rw [← Except.ok.inj h]
  unfold Response.fault? at hf
  unfold Exchange.render
  rw [hempty, List.length_nil] at hf
  rw [hempty, List.length_nil, ite_self, List.append_nil]
  exact ⟨rfl, bareHead_renderHead hs hf _ _⟩

/-- However a machine has been called, a response under a status that has
no body is refused, or what is sent of it is a bare head to which no
length has been added. -/
theorem sent_without_body (limits : Limits) (cs : List Call) {status : Status}
    (hs : status.allowsBody = false) (headers : Headers) :
    let m := ((start limits).calls cs).2
    (∀ length, (∃ v, (m.startResponse status headers length).1 = .error v) ∨
      ∃ head, (m.startResponse status headers length).1 = .ok head ∧ length = 0 ∧
        BareHead headers head ∧
        ∀ during, (∀ e ∈ (m.startResponse status headers length).2.history during,
            begins e = false) →
          ∀ data bytes, (((m.startResponse status headers length).2.calls during).2.sendBody
            data).1 = .ok bytes → bytes = []) ∧
    ∀ body, (∃ v, (m.sendResponse ⟨status, headers, body⟩).1 = .error v) ∨
      ∃ bytes, (m.sendResponse ⟨status, headers, body⟩).1 = .ok bytes ∧ body = [] ∧
        BareHead headers bytes := by
  have hv := (Valid.start limits).calls cs
  dsimp only
  generalize ((start limits).calls cs).2 = m at hv
  constructor
  · intro length
    cases hhead : (m.startResponse status headers length).1 with
    | error v => exact Or.inl ⟨v, rfl⟩
    | ok head =>
        obtain ⟨hzero, hbare, hdecided⟩ := startResponse_bare hs hhead
        refine Or.inr ⟨head, rfl, hzero, hbare, fun during hb data bytes hok => ?_⟩
        obtain ⟨hv', hdecided'⟩ :=
          hdecided.calls (hv.call (.startResponse status headers length)) hb
        obtain ⟨_, _, _, rfl, hle, rfl⟩ := hdecided'.sendBody hv' hok
        rw [List.eq_nil_of_length_eq_zero (Nat.le_zero.1 hle), ite_self]
  · intro body
    cases hsent : (m.sendResponse ⟨status, headers, body⟩).1 with
    | error v => exact Or.inl ⟨v, rfl⟩
    | ok bytes => exact Or.inr ⟨bytes, rfl, sendResponse_bare hs hsent⟩

/-- Headers that tell no length, under the code 204. -/
theorem sent_without_body_untold :
    ∃ (m : Machine) (head : Bytes), Status.allowsBody { code := 204 } = false ∧
      (m.startResponse { code := 204 } [⟨"etag", "a"⟩] 0).1 = .ok head ∧
        BareHead [⟨"etag", "a"⟩] head ∧
        ∀ data bytes, ((m.startResponse { code := 204 } [⟨"etag", "a"⟩] 0).2.sendBody data).1
          = .ok bytes → bytes = [] := by
  have hrun : ∃ cs : List Call,
      (((start {}).calls cs).2.startResponse { code := 204 } [⟨"etag", "a"⟩] 0).1.toBool
        = true :=
    ⟨[.receive (Text.Utf8.encode "GET / HTTP/1.1\r\n\r\n"), .poll, .poll], by decide +kernel⟩
  obtain ⟨cs, hstart⟩ := hrun
  have hs : Status.allowsBody { code := 204 } = false := by decide
  obtain ⟨hpieces, -⟩ := sent_without_body {} cs hs [⟨"etag", "a"⟩]
  rcases hpieces 0 with ⟨v, hrefused⟩ | ⟨head, hhead, -, hbare, hduring⟩
  · rw [hrefused] at hstart
    cases hstart
  · exact ⟨((start {}).calls cs).2, head, hs, hhead, hbare, hduring [] nofun⟩

/-- A length that is supplied is sent under the code 204 as well. -/
theorem length_is_sent_without_body :
    let m := ((start {}).calls
      [.receive (Text.Utf8.encode "GET / HTTP/1.1\r\n\r\n"), .poll, .poll]).2
    Status.allowsBody { code := 204 } = false ∧
      (m.startResponse { code := 204 } [⟨"content-length", "0"⟩] 0).1.toOption.bind
          Received.fields?
        = some ([⟨"content-length", "0"⟩], []) ∧
      Header.isNamed ⟨"content-length", "0"⟩ "Content-Length" = true := by
  decide +kernel

end Machine

end WireHttp
