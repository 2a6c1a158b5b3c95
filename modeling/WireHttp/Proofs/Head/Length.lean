/-
What a head says of the length of its body, and what comes of it.

A head can be sound in all other respects and declare a body of any
length at all (`Head.Sound`): digit strings are not bounded. Its verdict
then hangs on that one number (`Head.verdict_by_length`). Up to the limit
the head is accepted, and above it the body is too large; but this is
found by comparing words, and a number that is too large for a word has
been refused before, as if it were none.

A length that has been accepted is also read leniently, from the first
header of the name and with no regard to the others, by whoever is handed
the request. It comes to the same (`Request.contentLength_of_tell`), for
all headers of the name are digit strings of one number.
-/
import WireHttp.Proofs.Head.Grammar
import WireHttp.Request

namespace WireHttp

namespace Headers

variable {hs : Headers} {n : Nat}

-- ========================================================== the header lines

/-- Header lines tell one length. -/
theorem Tell.unique {m : Nat} (h : hs.Tell n) (h' : hs.Tell m) : m = n := by
  by_cases hnone : ∀ k ∈ hs, k.isNamed "Content-Length" = false
  · rw [h.none hnone, h'.none hnone]
  · push Not at hnone
    obtain ⟨k, hk, hne⟩ := hnone
    have hnamed : k.isNamed "Content-Length" = true := Bool.ne_false_iff.1 hne
    rw [← (h.digits k hk hnamed).2, ← (h'.digits k hk hnamed).2]

/-- A length that the header lines tell is read if it fits in a word. -/
theorem bodyLength?_of_tell (h : hs.Tell n) :
    hs.bodyLength? = if n < Text.Decimal.wordSize then some n else none := by
  split
  · next hword => exact bodyLength?_eq_some_iff.2 ⟨h, hword⟩
  · next hword =>
    cases hread : hs.bodyLength? with
    | none => rfl
    | some m =>
        obtain ⟨htell, hm⟩ := bodyLength?_eq_some_iff.1 hread
        exact absurd (h.unique htell ▸ hm) hword

end Headers

/-- A length that the header lines tell is the one that the first of them
gives when it is read leniently. -/
theorem Request.contentLength_of_tell {r : Request} {n : Nat} (h : r.headers.Tell n)
    (hn : n < Text.Decimal.wordSize) : r.contentLength = n := by
  unfold contentLength header? Headers.value?
  cases hfind : r.headers.find? (·.isNamed "Content-Length") with
  | none =>
      have hnone : ∀ k ∈ r.headers, k.isNamed "Content-Length" = false := by
        simpa using List.find?_eq_none.1 hfind
      rw [h.none hnone]
      rfl
  | some k =>
      have hnamed : k.isNamed "Content-Length" = true := by
        simpa using List.find?_some hfind
      obtain ⟨hdigits, hvalue⟩ := h.digits k (List.mem_of_find?_eq_some hfind) hnamed
      have hread := Text.Decimal.readDigits?_eq_some_iff.2 ⟨hdigits, hvalue, hn⟩
      rw [← Text.Decimal.readWord?_trim_of_isDigits hdigits] at hread
      show (Text.Decimal.readWord? (Text.trim k.value.toList)).getD 0 = n
      rw [hread]
      rfl

namespace Head

variable {limits : Limits}

-- ============================================================== the verdict

/-- What a head may say where there is no limit on the length of a body. -/
structure Sound (head : Head) : Prop where
  line : head.requestLine.WellFormed
  headers : ∀ h ∈ head.headers, h.WellFormed
  plain : ∀ h ∈ head.headers, h.isNamed "Transfer-Encoding" = false
  length : head.headers.Tell head.contentLength

/-- Lines that are read one by one spell a head, which is sound if its
header lines tell its length. -/
theorem sound_of_lines (head : Head) (first : List Char) (rest : List (List Char))
    (hfirst : RequestLine.read first = .ok head.requestLine)
    (hrest : Headers.read? rest = some head.headers)
    (hplain : ∀ h ∈ head.headers, h.isNamed "Transfer-Encoding" = false)
    (hlength : head.headers.Tell head.contentLength) :
    head.Sound ∧
      head.SpelledBy ((first :: rest).flatMap (· ++ ['\r', '\n']) ++ ['\r', '\n']) := by
  obtain ⟨rfl, hline⟩ := RequestLine.read_eq_ok_iff.1 hfirst
  obtain ⟨hspelled, hheaders⟩ := Headers.read?_eq_some_iff.1 hrest
  exact ⟨⟨hline, hheaders, hplain, hlength⟩, rest, hspelled, rfl⟩

/-- What becomes of a sound head: its length decides. -/
def checkLength (limits : Limits) (head : Head) : Except HeadError Head :=
  if head.contentLength < Text.Decimal.wordSize then
    if limits.maxBody.toNat < head.contentLength then
      .error (.bodyTooLarge head.contentLength limits.maxBody.toNat)
    else .ok head
  else .error .invalidContentLength

theorem ofLines_of_sound {head : Head} {lines : List (List Char)} (h : head.Sound)
    (hs : List.Forall₂ Header.SpelledBy head.headers lines) :
    ofLines limits head.requestLine.chars lines = head.checkLength limits := by
  have hplain : head.headers.any (·.isNamed "Transfer-Encoding") = false := by
    rw [List.any_eq_false]
    intro k hk
    rw [h.plain k hk]
    exact Bool.false_ne_true
  unfold ofLines checkLength
  simp only [RequestLine.read_eq_ok_iff.2 ⟨rfl, h.line⟩,
    Headers.read?_eq_some_iff.2 ⟨hs, h.headers⟩, hplain, Headers.bodyLength?_of_tell h.length]
  by_cases hword : head.contentLength < Text.Decimal.wordSize
  · by_cases hlarge : limits.maxBody.toNat < head.contentLength
    · simp only [if_pos hword, if_pos hlarge]
      rfl
    · simp only [if_pos hword, if_neg hlarge]
      rfl
  · simp only [if_neg hword]
    rfl

/-- The bytes of a text that spells a sound head, within the limit on heads
and with anything after them, are accepted as that head if it declares no
longer body than there may be. If it does, the peer is told that the body
is too large, unless the number is too large for a word: then that it is
malformed. -/
theorem verdict_by_length (limits : Limits) {head : Head} {text : List Char}
    (hs : head.SpelledBy text) (hw : head.Sound)
    (hle : (Text.Utf8.encodeChars text).length ≤ limits.maxHead) (rest : Bytes) :
    let verdict := read limits (Text.Utf8.encodeChars text ++ rest)
    (head.contentLength ≤ limits.maxBody.toNat →
      verdict = .ok (head, (Text.Utf8.encodeChars text).length)) ∧
    (limits.maxBody.toNat < head.contentLength → head.contentLength < Text.Decimal.wordSize →
      ∃ e, verdict = .error e ∧ e = .bodyTooLarge head.contentLength limits.maxBody.toNat ∧
        e.status = .payloadTooLarge) ∧
    (Text.Decimal.wordSize ≤ head.contentLength →
      ∃ e, verdict = .error e ∧ e = .invalidContentLength ∧ e.status = .badRequest) := by
  obtain ⟨lines, hspelled, htext⟩ := hs
  have hread := read_spelling hw.line hw.headers hspelled htext hle rest
  rw [ofLines_of_sound hw hspelled] at hread
  dsimp only
  rw [hread]
  unfold checkLength
  refine ⟨fun hfits => ?_, fun hlarge hword => ?_, fun hbeyond => ?_⟩
  · have hword : head.contentLength < Text.Decimal.wordSize :=
      Nat.lt_of_le_of_lt hfits limits.maxBody.toNat_lt
    rw [if_pos hword, if_neg (Nat.not_lt.2 hfits)]
    rfl
  · rw [if_pos hword, if_pos hlarge]
    exact ⟨_, rfl, rfl, rfl⟩
  · rw [if_neg (Nat.not_lt.2 hbeyond)]
    exact ⟨_, rfl, rfl, rfl⟩

/-- Seven is declared twice, in different spellings, where six bytes are
allowed. -/
theorem verdict_by_length_seven :
    ∃ (head : Head) (text : List Char), head.SpelledBy text ∧ head.Sound ∧
      6 < head.contentLength ∧ ∀ rest,
        read { maxBody := 6 } (Text.Utf8.encodeChars text ++ rest)
          = .error (.bodyTooLarge 7 6) := by
  obtain ⟨hsound, hspelled⟩ := sound_of_lines
    ⟨.put, "/", .http11, [⟨"Content-Length", "007"⟩, ⟨"content-length", "7"⟩], 7⟩
    "PUT / HTTP/1.1".toList ["Content-Length: 007".toList, "content-length:7".toList]
    (by decide +kernel) (by decide +kernel) (by decide +kernel)
    ⟨by decide +kernel, by decide +kernel⟩
  refine ⟨_, _, hspelled, hsound, by decide, fun rest => ?_⟩
  obtain ⟨-, hlarge, -⟩ :=
    verdict_by_length { maxBody := 6 } hspelled hsound (by decide +kernel) rest
  obtain ⟨e, hread, rfl, -⟩ := hlarge (by decide) (by decide)
  exact hread

/-- The least number that does not fit in a word is declared, which is more
than there may be of a body; it is refused as if it were no number. -/
theorem length_beyond_words :
    ∃ (head : Head) (text : List Char), head.SpelledBy text ∧ head.Sound ∧
      head.contentLength = Text.Decimal.wordSize ∧
      text = "POST / HTTP/1.1\r\nContent-Length: 18446744073709551616\r\n\r\n".toList ∧
      (Text.Utf8.encodeChars text).length ≤ Limits.maxHead {} ∧
      (Limits.maxBody {}).toNat < head.contentLength ∧
      read {} (Text.Utf8.encodeChars text) = .error .invalidContentLength ∧
      HeadError.invalidContentLength.status.code = 400 := by
  obtain ⟨hsound, hspelled⟩ := sound_of_lines
    ⟨.post, "/", .http11, [⟨"Content-Length", "18446744073709551616"⟩], Text.Decimal.wordSize⟩
    "POST / HTTP/1.1".toList ["Content-Length: 18446744073709551616".toList]
    (by decide +kernel) (by decide +kernel) (by decide +kernel)
    ⟨by decide +kernel, by decide +kernel⟩
  exact ⟨_, _, hspelled, hsound, rfl, by decide, by decide +kernel, by decide, by decide +kernel,
    by decide⟩

end Head

end WireHttp
