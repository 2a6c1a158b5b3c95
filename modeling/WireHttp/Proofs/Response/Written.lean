/-
Responses as they are written, and how a client reads them.

The core puts at most two lines of its own after the headers that it was
given, one for the length and one for the fate of the connection
(`outboundHeaders_eq`), and they pass the check that the others have
passed (`fits_outboundHeaders`).

A client reads a status line, then header lines up to the first empty
line, each cut at the first colon with a blank after it, and then as many
bytes as the first length says, or none if there is no body. No line that
has passed the check holds a carriage return, and no name holds a colon;
so the client is not led astray by anything in the headers or the body,
and reads the response that was sent, whatever follows
(`Received.read?_render`). What follows may be further responses
(`Received.readAll_render`): none can be cut in two, and none hides in
another.
-/
import WireHttp.Proofs.Head.Written
import WireHttp.Proofs.Machine.Reply

namespace WireHttp

-- ========================================================= the own lines

/-- The length, if the headers do not tell it and there may be a body. -/
def lengthLine (status : Status) (headers : Headers) (length : Nat) : Headers :=
  if !headers.any (·.isNamed "Content-Length") && status.allowsBody then
    [⟨"content-length", Text.Decimal.text length⟩]
  else []

/-- The fate of the connection, if the peer would not expect it. -/
def connectionLine (headers : Headers) (close http10 : Bool) : Headers :=
  if close && !headers.asksClose then [⟨"connection", "close"⟩]
  else if !close && http10 && !headers.asksKeepAlive then [⟨"connection", "keep-alive"⟩]
  else []

/-- The line that is added for the length gives it in digits, and only
where there may be a body. -/
theorem eq_of_mem_lengthLine {status : Status} {headers : Headers} {length : Nat} {k : Header}
    (h : k ∈ lengthLine status headers length) :
    status.allowsBody = true ∧ k = ⟨"content-length", Text.Decimal.text length⟩ := by
  unfold lengthLine at h
  split at h
  · next hc =>
    rw [Bool.and_eq_true] at hc
    exact ⟨hc.2, List.mem_singleton.1 h⟩
  · cases h

theorem eq_of_mem_connectionLine {headers : Headers} {close http10 : Bool} {k : Header}
    (h : k ∈ connectionLine headers close http10) :
    k = ⟨"connection", "close"⟩ ∨ k = ⟨"connection", "keep-alive"⟩ := by
  unfold connectionLine at h
  split at h
  · exact Or.inl (List.mem_singleton.1 h)
  · split at h
    · exact Or.inr (List.mem_singleton.1 h)
    · cases h

theorem outboundHeaders_eq (status : Status) (headers : Headers) (length : Nat)
    (close http10 : Bool) :
    outboundHeaders status headers length close http10
      = headers ++ (lengthLine status headers length ++ connectionLine headers close http10) := by
  have happend (c : Bool) (h : Header) :
      (if c then headers ++ [h] else headers) = headers ++ if c then [h] else [] := by
    cases c with
    | false => exact (List.append_nil _).symm
    | true => rfl
  unfold outboundHeaders lengthLine connectionLine
  dsimp only
  rw [happend, ← List.append_assoc]
  split
  · rfl
  · split
    · rfl
    · exact (List.append_nil _).symm

/-- The length says nothing about the connection. -/
theorem hasToken_lengthLine (status : Status) (headers : Headers) (length : Nat)
    (token : String) : (lengthLine status headers length).hasToken "Connection" token = false := by
  unfold lengthLine
  split
  · have hnamed : Header.isNamed ⟨"content-length", Text.Decimal.text length⟩ "Connection"
        = false :=
      (by decide : Text.sameIgnoringCase "content-length".toList "Connection".toList = false)
    unfold Headers.hasToken Headers.elements
    simp only [List.filter_cons, hnamed]
    rfl
  · rfl

/-- What is sent lists an option of the connection if what was supplied
does, or the line that was added. -/
theorem hasToken_outboundHeaders (status : Status) (headers : Headers) (length : Nat)
    (close http10 : Bool) (token : String) :
    (outboundHeaders status headers length close http10).hasToken "Connection" token
      = (headers.hasToken "Connection" token
        || (connectionLine headers close http10).hasToken "Connection" token) := by
  rw [outboundHeaders_eq, Headers.hasToken_append, Headers.hasToken_append, hasToken_lengthLine,
    Bool.false_or]

theorem asksClose_connectionLine (headers : Headers) (close http10 : Bool) :
    (connectionLine headers close http10).asksClose = (close && !headers.asksClose) := by
  unfold connectionLine
  split
  · next hc =>
    rw [hc]
    decide
  · next hc =>
    rw [Bool.eq_false_iff.2 hc]
    split
    · decide
    · rfl

theorem asksKeepAlive_connectionLine (headers : Headers) (close http10 : Bool) :
    (connectionLine headers close http10).asksKeepAlive
      = (!close && http10 && !headers.asksKeepAlive) := by
  unfold connectionLine
  split
  · next hc =>
    rw [Bool.and_eq_true] at hc
    rw [hc.1, Bool.not_true, Bool.false_and, Bool.false_and]
    decide
  · split
    · next hk =>
      rw [hk]
      decide
    · next hk =>
      rw [Bool.eq_false_iff.2 hk]
      rfl

/-- What is sent asks for the close if what was supplied does, or if the
connection ends with it. -/
theorem asksClose_outboundHeaders (status : Status) (headers : Headers) (length : Nat)
    (close http10 : Bool) :
    (outboundHeaders status headers length close http10).asksClose
      = (headers.asksClose || close) := by
  have h := hasToken_outboundHeaders status headers length close http10 "close"
  have hadded := asksClose_connectionLine headers close http10
  unfold Headers.asksClose at hadded ⊢
  rw [h, hadded]
  cases headers.hasToken "Connection" "close" <;> cases close <;> rfl

/-- It asks to keep the connection if what was supplied does, or if the
connection goes on and the peer would not expect it. -/
theorem asksKeepAlive_outboundHeaders (status : Status) (headers : Headers) (length : Nat)
    (close http10 : Bool) :
    (outboundHeaders status headers length close http10).asksKeepAlive
      = (headers.asksKeepAlive || (!close && http10)) := by
  have h := hasToken_outboundHeaders status headers length close http10 "keep-alive"
  have hadded := asksKeepAlive_connectionLine headers close http10
  unfold Headers.asksKeepAlive at hadded ⊢
  rw [h, hadded]
  cases headers.hasToken "Connection" "keep-alive" <;> cases close <;> cases http10 <;> rfl

/-- Read by the rule for messages of the peer's version, what is sent keeps
the connection just if the connection does not end with it. Supplied
headers that ask for the close must get it. -/
theorem keepAlive_outboundHeaders (status : Status) {headers : Headers} (length : Nat)
    {close http10 : Bool} {version : Version} (hc : headers.asksClose = true → close = true)
    (hv : http10 = true ↔ version = .http10) :
    (outboundHeaders status headers length close http10).keepAlive version = !close := by
  unfold Headers.keepAlive
  rw [asksClose_outboundHeaders, asksKeepAlive_outboundHeaders]
  cases close with
  | true =>
      rw [Bool.or_true, if_pos rfl]
      rfl
  | false =>
      rw [Bool.or_false, if_neg fun h => Bool.false_ne_true (hc h)]
      cases version with
      | http11 => rfl
      | http10 =>
          rw [hv.2 rfl]
          exact Bool.or_true _

-- ============================================================= the check

/-- A header line that may be sent with a body of so many bytes. -/
structure Header.Fits (length : Nat) (h : Header) : Prop where
  name : isToken h.name.toList = true
  value : ∀ c ∈ h.value.toList, breaksLine c = false
  plain : h.isNamed "Transfer-Encoding" = false
  length : h.isNamed "Content-Length" = true →
    Text.Decimal.readWord? (Text.trim h.value.toList) = some length

theorem Header.fits_of_fault? {length : Nat} {h : Header} (hf : h.fault? length = none) :
    h.Fits length := by
  unfold Header.fault? at hf
  split at hf
  · cases hf
  · next hline =>
    split at hf
    · cases hf
    · next hplain =>
      rw [Bool.or_eq_true, not_or, Bool.not_eq_true', Bool.not_eq_false, List.any_eq_true] at hline
      refine ⟨hline.1, ?_, Bool.eq_false_iff.2 hplain, ?_⟩
      · intro c hc
        exact Bool.eq_false_iff.2 fun hb => hline.2 ⟨c, hc, hb⟩
      · intro hn
        rw [if_pos hn] at hf
        split at hf
        · cases hf
        · next declared hr =>
          split at hf
          · next heq => rw [hr, heq]
          · cases hf

theorem fits_of_headFault? {status : Status} {headers : Headers} {length : Nat}
    (hf : headFault? status headers length = none) :
    status.isInterim = false ∧ (∀ h ∈ headers, h.Fits length) ∧
      (status.allowsBody = true ∨ length = 0) := by
  unfold headFault? at hf
  split at hf
  · cases hf
  · next hi =>
    split at hf
    · cases hf
    · next hnone =>
      refine ⟨Bool.eq_false_iff.2 hi, ?_, ?_⟩
      · intro h hh
        exact Header.fits_of_fault? (List.findSome?_eq_none_iff.1 hnone h hh)
      · split at hf
        · cases hf
        · next hb =>
          cases ha : status.allowsBody with
          | true => exact Or.inl rfl
          | false =>
              rw [ha, Bool.not_false, Bool.true_and, decide_eq_true_eq] at hb
              exact Or.inr (Nat.eq_zero_of_not_pos hb)

/-- Only an empty body passes the check under a status that has none. -/
theorem length_eq_zero_of_headFault? {status : Status} (hs : status.allowsBody = false)
    {headers : Headers} {length : Nat} (hf : headFault? status headers length = none) :
    length = 0 := by
  obtain ⟨-, -, hbody⟩ := fits_of_headFault? hf
  apply hbody.resolve_left
  rw [hs]
  exact Bool.false_ne_true

theorem notMem_digits {c : Char} (hc : c.isDigit = false) (n : Nat) :
    c ∉ Text.Decimal.digits n := by
  intro hm
  rw [(Text.Decimal.isDigits_iff.1 (Text.Decimal.isDigits_digits n)).2 c hm] at hc
  cases hc

/-- The lines that the core adds pass the check as well. -/
theorem fits_outboundHeaders (status : Status) {headers : Headers} {length : Nat}
    (h : ∀ k ∈ headers, k.Fits length) (hl : length < Text.Decimal.wordSize)
    (close http10 : Bool) :
    ∀ k ∈ outboundHeaders status headers length close http10, k.Fits length := by
  intro k hk
  rw [outboundHeaders_eq, List.mem_append, List.mem_append] at hk
  rcases hk with hk | hk | hk
  · exact h k hk
  · obtain ⟨-, rfl⟩ := eq_of_mem_lengthLine hk
    refine ⟨(by decide : isToken "content-length".toList = true), ?_,
      (by decide : Text.sameIgnoringCase "content-length".toList "Transfer-Encoding".toList
        = false), fun _ => ?_⟩
    · intro c hc
      rw [Text.Decimal.text, String.toList_ofList] at hc
      rw [Bool.eq_false_iff]
      intro hb
      simp only [breaksLine, Bool.or_eq_true, beq_iff_eq] at hb
      rcases hb with (rfl | rfl) | rfl
      · exact notMem_digits (by decide) length hc
      · exact notMem_digits (by decide) length hc
      · exact notMem_digits (by decide) length hc
    · rw [Text.Decimal.text, String.toList_ofList,
        Text.Decimal.readWord?_trim_of_isDigits (Text.Decimal.isDigits_digits length)]
      exact Text.Decimal.readDigits?_digits hl
  · rcases eq_of_mem_connectionLine hk with rfl | rfl
    · exact ⟨by decide, by simp [breaksLine], by decide, nofun⟩
    · exact ⟨by decide, by simp [breaksLine], by decide, nofun⟩

/-- Where there may be a body, a line that is sent tells its length. -/
theorem any_outboundHeaders {status : Status} (h : status.allowsBody = true) (headers : Headers)
    (length : Nat) (close http10 : Bool) :
    (outboundHeaders status headers length close http10).any (·.isNamed "Content-Length")
      = true := by
  rw [outboundHeaders_eq, List.any_append, List.any_append]
  cases ha : headers.any (·.isNamed "Content-Length") with
  | true => rfl
  | false =>
      have hline : lengthLine status headers length
          = [⟨"content-length", Text.Decimal.text length⟩] := by
        unfold lengthLine
        rw [ha, h]
        rfl
      have hnamed : Header.isNamed ⟨"content-length", Text.Decimal.text length⟩ "Content-Length"
          = true :=
        (by decide : Text.sameIgnoringCase "content-length".toList "Content-Length".toList = true)
      rw [hline, List.any_cons, hnamed]
      rfl

-- ============================================================ the client

/-- What stands before and after the first place where `b` follows `a`. -/
def cutAt? {α : Type} [DecidableEq α] (a b : α) : List α → Option (List α × List α)
  | x :: y :: rest =>
    if x = a ∧ y = b then some ([], rest)
    else (cutAt? a b (y :: rest)).map fun (before, after) => (x :: before, after)
  | _ => none

/-- A response as a client reads it. -/
structure Received where
  code : Nat
  reason : String
  headers : Headers
  body : Bytes
  deriving DecidableEq, Repr

namespace Received

/-- Code and reason phrase of a status line. -/
def status? (line : Bytes) : Option (Nat × String) := do
  let text ← Text.Utf8.decode? line
  let (version, rest) ← Text.cut? ' ' text.toList
  let (code, reason) ← Text.cut? ' ' rest
  if version = "HTTP/1.1".toList ∧ Text.Decimal.isDigits code = true then
    some (Text.Decimal.value code, String.ofList reason)
  else none

/-- A header line: its name ends at the first colon with a blank after it. -/
def header? (line : Bytes) : Option Header := do
  let text ← Text.Utf8.decode? line
  let (name, value) ← cutAt? ':' ' ' text.toList
  some ⟨String.ofList name, String.ofList value⟩

/-- The header lines up to the first empty line, and what comes after it,
where the bytes of `line`, last one first, have already been read. -/
def headersAfter (line : Bytes) : Bytes → Option (Headers × Bytes)
  | [] => none
  | 13 :: 10 :: bs =>
    if line = [] then some ([], bs)
    else do
      let h ← header? line.reverse
      let (hs, rest) ← headersAfter [] bs
      some (h :: hs, rest)
  | b :: bs => headersAfter (b :: line) bs

/-- The header lines at the front, past a status line, and the bytes after
them. -/
def fields? (bs : Bytes) : Option (Headers × Bytes) := do
  let (_, rest) ← cutAt? 13 10 bs
  headersAfter [] rest

/-- The length of the body: none in answer to a `HEAD` and under two of
the codes, or what the first length says. -/
def length? (headOnly : Bool) (code : Nat) (headers : Headers) : Option Nat :=
  if headOnly || code == 204 || code == 304 then some 0
  else
    (headers.value? "Content-Length").bind fun v => Text.Decimal.readWord? (Text.trim v.toList)

/-- The response at the front, and the bytes after it. -/
def read? (headOnly : Bool) (bs : Bytes) : Option (Received × Bytes) := do
  let (line, rest) ← cutAt? 13 10 bs
  let (code, reason) ← status? line
  let (headers, rest) ← headersAfter [] rest
  let length ← length? headOnly code headers
  if rest.length < length then none
  else some (⟨code, reason, headers, rest.take length⟩, rest.drop length)

/-- As many responses as there are requests, of each of which it is known
whether it was a `HEAD`. -/
def readAll : List Bool → Bytes → Option (List Received × Bytes)
  | [], bs => some ([], bs)
  | headOnly :: flags, bs => do
    let (r, rest) ← read? headOnly bs
    let (rs, rest) ← readAll flags rest
    some (r :: rs, rest)

end Received

/-- What a client is to read of a response. -/
def Exchange.received (x : Exchange) (r : Response) (close : Bool) : Received where
  code := r.status.code
  reason := r.status.reason
  headers := r.headers
    ++ (lengthLine r.status r.headers r.body.length ++ connectionLine r.headers close x.http10)
  body := if x.headOnly then [] else r.body

-- ================================================================ cutting

theorem cutAt?_append {α : Type} [DecidableEq α] {a : α} (b : α) {front : List α} (h : a ∉ front)
    (rest : List α) : cutAt? a b (front ++ a :: b :: rest) = some (front, rest) := by
  induction front with
  | nil =>
      rw [List.nil_append, cutAt?, if_pos ⟨rfl, rfl⟩]
  | cons x front ih =>
      have hx : ¬ x = a := fun e => h (e ▸ List.mem_cons_self)
      have hrest := ih fun hm => h (List.mem_cons_of_mem x hm)
      obtain ⟨y, ys, hy⟩ : ∃ y ys, front ++ a :: b :: rest = y :: ys :=
        List.exists_cons_of_ne_nil (by simp)
      rw [List.cons_append, hy, cutAt?, if_neg fun hc => hx hc.1, ← hy, hrest]
      rfl

namespace Received

theorem headersAfter_append {front : Bytes} (h : 13 ∉ front) (line rest : Bytes) :
    headersAfter line (front ++ rest) = headersAfter (front.reverse ++ line) rest := by
  induction front generalizing line with
  | nil => rfl
  | cons b front ih =>
      have hb : b ≠ 13 := fun e => h (e ▸ List.mem_cons_self)
      have hfront : 13 ∉ front := fun hm => h (List.mem_cons_of_mem b hm)
      rw [List.cons_append, headersAfter, ih hfront, List.reverse_cons, List.append_assoc]
      · rfl
      · intro _ e
        exact absurd e hb

/-- A line ends at its line end. -/
theorem headersAfter_lineEnd {line : Bytes} (hne : line ≠ []) (hcr : 13 ∉ line) (rest : Bytes) :
    headersAfter [] (line ++ [13, 10] ++ rest) =
      (header? line).bind fun h => (headersAfter [] rest).bind fun p => some (h :: p.1, p.2) := by
  rw [List.append_assoc, headersAfter_append hcr, List.append_nil]
  show headersAfter line.reverse (13 :: 10 :: rest) = _
  rw [headersAfter, if_neg fun h => hne (List.reverse_eq_nil_iff.1 h), List.reverse_reverse]
  rfl

-- ========================================================= line by line

end Received

theorem Header.Fits.cr_notMem_line {length : Nat} {h : Header} (hf : h.Fits length) :
    '\r' ∉ h.line := by
  apply Header.cr_notMem_line hf.name
  intro hm
  cases hf.value '\r' hm

theorem Header.Fits.header?_line {length : Nat} {h : Header} (hf : h.Fits length) :
    Received.header? (Text.Utf8.encodeChars h.line) = some h := by
  have hcut : cutAt? ':' ' ' h.line = some (h.name.toList, h.value.toList) :=
    cutAt?_append ' ' (notMem_of_isToken hf.name (by decide)) h.value.toList
  unfold Received.header?
  rw [Text.Utf8.decode?_encodeChars, Option.bind_eq_bind, Option.bind_some, String.toList_ofList,
    hcut]
  simp only [Option.bind_eq_bind, Option.bind_some, String.ofList_toList]

/-- Header lines that have passed the check are read as they were, up to
the blank line. -/
theorem Received.headersAfter_render {length : Nat} {hs : Headers} (h : ∀ k ∈ hs, k.Fits length)
    (rest : Bytes) :
    headersAfter [] (hs.flatMap Header.render ++ [13, 10] ++ rest) = some (hs, rest) := by
  induction hs with
  | nil => rfl
  | cons k hs ih =>
      have hk := h k List.mem_cons_self
      have hne : Text.Utf8.encodeChars k.line ≠ [] :=
        Text.Utf8.encodeChars_ne_nil (by simp [Header.line])
      have hcr := Text.Utf8.cr_notMem_encodeChars hk.cr_notMem_line
      rw [List.flatMap_cons, k.render_eq, List.append_assoc, List.append_assoc,
        headersAfter_lineEnd hne hcr, hk.header?_line, ← List.append_assoc,
        ih fun j hj => h j (List.mem_cons_of_mem k hj)]
      rfl

namespace Status

/-- The characters of a status line. -/
def line (s : Status) : List Char :=
  "HTTP/1.1".toList ++ ' ' :: (Text.Decimal.digits s.code ++ ' ' :: s.reason.toList)

theorem renderLine_eq (s : Status) :
    s.renderLine = Text.Utf8.encodeChars s.line ++ [13, 10] := by
  have hversion : "HTTP/1.1 ".toList = "HTTP/1.1".toList ++ [' '] := by decide
  have hchars : ("HTTP/1.1 " ++ s.text ++ "\r\n").toList = s.line ++ ['\r', '\n'] := by
    unfold text line Text.Decimal.text
    generalize s.reason = reason
    simp [hversion]
  rw [← Text.Utf8.encodeChars_lineEnd, ← Text.Utf8.encodeChars_append, ← hchars]
  rfl

theorem cr_notMem_reason (s : Status) : '\r' ∉ s.reason.toList := by
  unfold reason
  split <;> decide

theorem cr_notMem_line (s : Status) : '\r' ∉ s.line := by
  have hdigits : '\r' ∉ Text.Decimal.digits s.code := notMem_digits (by decide) s.code
  have hreason := s.cr_notMem_reason
  unfold line
  generalize s.reason = reason at hreason
  simp [hdigits, hreason]

theorem status?_line (s : Status) :
    Received.status? (Text.Utf8.encodeChars s.line) = some (s.code, s.reason) := by
  have hversion : Text.cut? ' ' s.line
      = some ("HTTP/1.1".toList, Text.Decimal.digits s.code ++ ' ' :: s.reason.toList) :=
    Text.cut?_eq_some_iff.2 ⟨rfl, by decide⟩
  have hcode : Text.cut? ' ' (Text.Decimal.digits s.code ++ ' ' :: s.reason.toList)
      = some (Text.Decimal.digits s.code, s.reason.toList) :=
    Text.cut?_eq_some_iff.2 ⟨rfl, notMem_digits (by decide) s.code⟩
  unfold Received.status?
  simp only [Option.bind_eq_bind, Text.Utf8.decode?_encodeChars, Option.bind_some,
    String.toList_ofList, hversion, hcode]
  rw [if_pos ⟨trivial, Text.Decimal.isDigits_digits _⟩, Text.Decimal.value_digits,
    String.ofList_toList]

end Status

/-- A head ends its status line where it should. -/
theorem cutAt?_renderHead (status : Status) (hs : Headers) (rest : Bytes) :
    cutAt? 13 10 (renderHead status hs ++ rest)
      = some (Text.Utf8.encodeChars status.line,
          hs.flatMap Header.render ++ [13, 10] ++ rest) := by
  have hbytes : renderHead status hs ++ rest
      = Text.Utf8.encodeChars status.line ++ 13 :: 10 ::
        (hs.flatMap Header.render ++ [13, 10] ++ rest) := by
    unfold renderHead
    rw [status.renderLine_eq]
    simp only [List.append_assoc, List.cons_append, List.nil_append]
  rw [hbytes]
  exact cutAt?_append _ (Text.Utf8.cr_notMem_encodeChars status.cr_notMem_line) _

/-- The header lines of a head that has passed the check are those that it
was made of, and nothing of them is left over. -/
theorem Received.fields?_renderHead (status : Status) {length : Nat} {hs : Headers}
    (h : ∀ k ∈ hs, k.Fits length) (rest : Bytes) :
    fields? (renderHead status hs ++ rest) = some (hs, rest) := by
  unfold fields?
  rw [cutAt?_renderHead, Option.bind_eq_bind, Option.bind_some]
  exact headersAfter_render h rest

/-- The header lines of a head that has passed the check are read as they
were sent. -/
theorem fields?_outboundHeaders {status : Status} {headers : Headers} {length : Nat}
    (hf : headFault? status headers length = none) (hl : length < Text.Decimal.wordSize)
    (close http10 : Bool) :
    Received.fields? (renderHead status (outboundHeaders status headers length close http10))
      = some (outboundHeaders status headers length close http10, []) := by
  obtain ⟨-, hfits, -⟩ := fits_of_headFault? hf
  have hall := fits_outboundHeaders status hfits hl close http10
  have hread := Received.fields?_renderHead status hall []
  rwa [List.append_nil] at hread

-- ================================================= the whole of a response

/-- The length that a client reads is that of the body it is to read. -/
theorem Exchange.length?_received {x : Exchange} {r : Response} (hf : r.fault? = none)
    (hl : r.body.length < Text.Decimal.wordSize) (close : Bool) :
    Received.length? x.headOnly r.status.code (x.received r close).headers
      = some (x.received r close).body.length := by
  obtain ⟨hi, hfits, -⟩ := fits_of_headFault? hf
  unfold Exchange.received
  dsimp only
  rw [← outboundHeaders_eq]
  unfold Received.length?
  cases hh : x.headOnly with
  | true => rfl
  | false =>
      simp only [Bool.false_or, Bool.false_eq_true, if_false]
      cases ha : r.status.allowsBody with
      | false =>
          have hcode : (r.status.code == 204 || r.status.code == 304) = true := by
            unfold Status.allowsBody at ha
            rwa [hi, Bool.false_or, Bool.not_eq_false'] at ha
          rw [if_pos hcode, length_eq_zero_of_headFault? ha hf]
      | true =>
          have hcode : ¬ (r.status.code == 204 || r.status.code == 304) = true := by
            unfold Status.allowsBody at ha
            rw [hi, Bool.false_or, Bool.not_eq_true'] at ha
            rw [ha]
            exact Bool.false_ne_true
          have hany := any_outboundHeaders ha r.headers r.body.length close x.http10
          have hall := fits_outboundHeaders r.status hfits hl close x.http10
          rw [if_neg hcode]
          unfold Headers.value?
          cases hk : (outboundHeaders r.status r.headers r.body.length close x.http10).find?
              (·.isNamed "Content-Length") with
          | none =>
              obtain ⟨k, hmem, hnamed⟩ := List.any_eq_true.1 hany
              exact absurd hnamed (List.find?_eq_none.1 hk k hmem)
          | some k =>
              have hnamed := List.find?_some hk
              exact (hall k (List.mem_of_find?_eq_some hk)).length hnamed

/-- A response that may be sent is read as it was sent, whatever follows. -/
theorem Received.read?_render {x : Exchange} {r : Response} (hf : r.fault? = none)
    (hl : r.body.length < Text.Decimal.wordSize) (close : Bool) (rest : Bytes) :
    read? x.headOnly (x.render r close ++ rest) = some (x.received r close, rest) := by
  obtain ⟨-, hfits, -⟩ := fits_of_headFault? hf
  have hall : ∀ k ∈ (x.received r close).headers, k.Fits r.body.length := by
    have hall := fits_outboundHeaders r.status hfits hl close x.http10
    rwa [outboundHeaders_eq] at hall
  have hbytes : x.render r close ++ rest
      = renderHead r.status (x.received r close).headers
        ++ ((x.received r close).body ++ rest) := by
    unfold Exchange.render Exchange.received
    rw [outboundHeaders_eq, List.append_assoc]
  have hlength := Exchange.length?_received (x := x) hf hl close
  have hle : ¬ ((x.received r close).body ++ rest).length < (x.received r close).body.length := by
    rw [List.length_append]
    omega
  unfold read?
  simp only [Option.bind_eq_bind, hbytes, cutAt?_renderHead, Option.bind_some,
    r.status.status?_line, headersAfter_render hall, hlength]
  rw [if_neg hle, List.take_left, List.drop_left]
  rfl

/-- An answer that has been sent: to what it was one, and whether the
connection ended with it. -/
structure Reply where
  exchange : Exchange
  response : Response
  close : Bool

namespace Reply

/-- The bytes of an answer. -/
def render (s : Reply) : Bytes :=
  s.exchange.render s.response s.close

/-- What a client is to read of an answer. -/
def received (s : Reply) : Received :=
  s.exchange.received s.response s.close

/-- The answer has passed the check. -/
structure Fits (s : Reply) : Prop where
  fault : s.response.fault? = none
  word : s.response.body.length < Text.Decimal.wordSize

end Reply

/-- Answers that may be sent, one after the other, are read as they were
sent, whatever follows. -/
theorem Received.readAll_render {sent : List Reply} (h : ∀ s ∈ sent, s.Fits) (rest : Bytes) :
    readAll (sent.map (·.exchange.headOnly)) (sent.flatMap Reply.render ++ rest)
      = some (sent.map Reply.received, rest) := by
  induction sent with
  | nil => rfl
  | cons s sent ih =>
      have hs := h s List.mem_cons_self
      have hfirst := read?_render (x := s.exchange) hs.fault hs.word s.close
        (sent.flatMap Reply.render ++ rest)
      rw [List.map_cons, List.flatMap_cons, List.append_assoc, readAll, Reply.render, hfirst]
      simp only [Option.bind_eq_bind, Option.bind_some]
      rw [ih fun t ht => h t (List.mem_cons_of_mem s ht)]
      rfl

end WireHttp
