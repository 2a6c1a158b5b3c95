/-
Requests as a client writes them, and how their heads are read. A request
is written as its request line, its header lines, a blank line and its
body; if it is well formed, the front of its bytes is read as its head,
whatever its body holds and whatever follows (`read_render`).

What a client writes is one of the texts that the grammar allows for the
head, the one with a single blank before each value
(`Header.spelledBy_line`), and a well-formed request has a head that may
stand (`WellFormed.head`). The rest is the grammar's.
-/
import WireHttp.Proofs.Head.Grammar
import WireHttp.Request
import WireHttp.Response.Head

namespace WireHttp

-- ===================================================== written requests

namespace Request

/-- The request line and header lines, each with its line end, and the
blank line. -/
def renderHead (r : Request) : Bytes :=
  Text.Utf8.encode (r.method.text ++ " " ++ r.target ++ " " ++ r.version.text ++ "\r\n")
    ++ r.headers.flatMap Header.render ++ [13, 10]

/-- The bytes of a request. -/
def render (r : Request) : Bytes :=
  r.renderHead ++ r.body

/-- The head of a request. -/
def head (r : Request) : Head where
  method := r.method
  target := r.target
  version := r.version
  headers := r.headers
  contentLength := r.body.length

/-- The header lines tell the length of the body: there is none to tell,
or one at least tells it, and each that does is a digit string of it. -/
def TellsLength (r : Request) : Prop :=
  (r.body = [] ∧ ∀ h ∈ r.headers, h.isNamed "Content-Length" = false) ∨
    ((∃ h ∈ r.headers, h.isNamed "Content-Length" = true) ∧
      ∀ h ∈ r.headers, h.isNamed "Content-Length" = true →
        Text.Decimal.isDigits h.value.toList = true ∧
          Text.Decimal.value h.value.toList = r.body.length)

/-- A request that can be told from its bytes, and that stays within the
limits. Its method is the one that its token names. -/
structure WellFormed (limits : Limits) (r : Request) : Prop where
  method : Method.ofText? r.method.text = some r.method
  target_ne : r.target ≠ ""
  target : ∀ c ∈ r.target.toList, 0x20 < c.toNat ∧ c.toNat ≠ 0x7F
  headers : ∀ h ∈ r.headers, h.WellFormed
  plain : ∀ h ∈ r.headers, h.isNamed "Transfer-Encoding" = false
  length : r.TellsLength
  head_le : r.renderHead.length ≤ limits.maxHead
  body_le : r.body.length ≤ limits.maxBody.toNat

end Request

-- ========================================================= header lines

namespace Header

/-- The characters of a header line. -/
def line (h : Header) : List Char :=
  h.name.toList ++ ':' :: ' ' :: h.value.toList

theorem render_eq (h : Header) :
    h.render = Text.Utf8.encodeChars h.line ++ [13, 10] := by
  rw [← Text.Utf8.encodeChars_lineEnd, ← Text.Utf8.encodeChars_append]
  simp [render, line, Text.Utf8.encode]

/-- A header is written with a blank in front of its value and nothing
after it. -/
theorem spelledBy_line (h : Header) : h.SpelledBy h.line := by
  refine ⟨[' '], [], ?_, nofun, ?_⟩
  · rw [List.forall_mem_singleton]
    decide
  · rw [List.append_nil]
    rfl

theorem cr_notMem_line {h : Header} (hn : isToken h.name.toList = true)
    (hv : '\r' ∉ h.value.toList) : '\r' ∉ h.line := by
  have hname : '\r' ∉ h.name.toList := notMem_of_isToken hn (by decide)
  simp [line, hname, hv]

end Header

-- ========================================================= the whole head

namespace Request

variable {limits : Limits} {r : Request}

theorem WellFormed.isToken_method (h : r.WellFormed limits) :
    isToken r.method.text.toList = true :=
  (Method.ofText?_eq_some h.method).2

/-- The length of the body is told by the header lines of the head. -/
theorem TellsLength.tell (h : r.TellsLength) : r.headers.Tell r.body.length := by
  rcases h with ⟨hbody, hnone⟩ | ⟨⟨k, hk, hnamed⟩, hdigits⟩
  · refine ⟨fun k hk hnamed => ?_, fun _ => by rw [hbody]; rfl⟩
    cases (hnone k hk).symm.trans hnamed
  · refine ⟨hdigits, fun hnone => ?_⟩
    cases (hnone k hk).symm.trans hnamed

/-- The head of a well-formed request may stand. -/
theorem WellFormed.head (h : r.WellFormed limits) : r.head.WellFormed limits := by
  refine ⟨⟨(Method.ofText?_eq_some_iff.1 h.method).2, h.target_ne, ?_⟩, h.headers, h.plain,
    h.length.tell, h.body_le⟩
  exact (Text.Utf8.forall_mem_encodeChars_iff (P := fun n => 0x20 < n ∧ n ≠ 0x7F)
    (by omega)).2 h.target

/-- The text of the head. -/
def headText (r : Request) : List Char :=
  (r.head.requestLine.chars :: r.headers.map Header.line).flatMap (· ++ ['\r', '\n'])
    ++ ['\r', '\n']

theorem spelledBy_headText (r : Request) : r.head.SpelledBy r.headText := by
  refine ⟨r.headers.map Header.line, ?_, rfl⟩
  rw [List.forall₂_map_right_iff]
  exact List.forall₂_same.2 fun k _ => k.spelledBy_line

theorem renderHead_eq (r : Request) : r.renderHead = Text.Utf8.encodeChars r.headText := by
  have hline : Text.Utf8.encode (r.method.text ++ " " ++ r.target ++ " " ++ r.version.text
      ++ "\r\n") = Text.Utf8.encodeChars (r.head.requestLine.chars ++ ['\r', '\n']) := by
    simp [Text.Utf8.encode, RequestLine.chars, Head.requestLine, head]
  have hheaders (hs : Headers) : hs.flatMap Header.render
      = Text.Utf8.encodeChars ((hs.map Header.line).flatMap (· ++ ['\r', '\n'])) := by
    induction hs with
    | nil => rfl
    | cons h hs ih =>
        rw [List.flatMap_cons, ih, List.map_cons, List.flatMap_cons, Text.Utf8.encodeChars_append,
          Text.Utf8.encodeChars_append, h.render_eq, Text.Utf8.encodeChars_lineEnd]
  unfold renderHead headText
  rw [hline, hheaders, List.flatMap_cons, ← Text.Utf8.encodeChars_lineEnd,
    ← Text.Utf8.encodeChars_append, ← Text.Utf8.encodeChars_append]

/-- The bytes of a well-formed request begin with those of its head,
whatever comes after them. -/
theorem WellFormed.read_render (h : r.WellFormed limits) (rest : Bytes) :
    Head.read limits (r.renderHead ++ rest) = .ok (r.head, r.renderHead.length) := by
  have hle := h.head_le
  rw [renderHead_eq] at hle ⊢
  exact Head.read_of_spelledBy r.spelledBy_headText h.head hle rest

end Request

end WireHttp
