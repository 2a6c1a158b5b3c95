/-
The verdict on a head is final. A buffer is judged incomplete in one case
only, when it holds no delimiter and is still within the limit
(`read_eq_incomplete_iff`); every other verdict stands whatever arrives
later (`read_append`).

The two ways in which a verdict comes early are the same verdict: a
buffer that outgrew the limit without a delimiter is too large, and so
is the head that ends when the delimiter arrives after all. So a head is
too large just if no delimiter ends within the limit
(`read_eq_headTooLarge_iff`), and there are two verdicts about where the
head ends. Any other is one about the head itself, and hangs on the bytes
up to the end of the first delimiter alone (`verdict_is_final`).

A head that is accepted has its price. It takes up sixteen bytes at least,
those of the shortest request line and of the delimiter
(`sixteen_le_of_read`), and more than any first bytes of the buffer that
hold no delimiter (`lt_of_find?_take`).
-/
import WireHttp.Head.Reader
import WireHttp.Proofs.Head.Grammar

namespace WireHttp

-- ========================================== what the parts never say

/-- Whether an error is about where the head ends and not about what it
says. -/
def HeadError.isOfSize : HeadError → Bool
  | incomplete | headTooLarge _ => true
  | _ => false

/-- A version is never at fault for its size. -/
private theorem Version.not_isOfSize_of_read {cs : List Char} {e : HeadError}
    (h : Version.read cs = .error e) : e.isOfSize = false := by
  unfold Version.read at h
  repeat' split at h
  all_goals
    cases h
    try rfl

/-- A request line is never at fault for its size. -/
private theorem RequestLine.not_isOfSize_of_read {line : List Char} {e : HeadError}
    (h : RequestLine.read line = .error e) : e.isOfSize = false := by
  unfold RequestLine.read at h
  simp only [bind, Except.bind, pure, Except.pure] at h
  repeat' split at h
  all_goals first
    | cases h; done
    | next hv =>
      injection h with h
      exact Version.not_isOfSize_of_read (hv.trans (congrArg _ h))
    | cases h; rfl

namespace Head

/-- A head whose lines are all there is never at fault for its size. -/
private theorem not_isOfSize_of_ofLines {limits : Limits} {first : List Char}
    {rest : List (List Char)} {e : HeadError} (h : ofLines limits first rest = .error e) :
    e.isOfSize = false := by
  unfold ofLines at h
  simp only [bind, Except.bind, pure, Except.pure] at h
  repeat' split at h
  all_goals first
    | cases h; done
    | next hl =>
      injection h with h
      exact RequestLine.not_isOfSize_of_read (hl.trans (congrArg _ h))
    | cases h; rfl

/-- A head whose bytes are all there is never at fault for its size. -/
theorem not_isOfSize_of_ofBytes {limits : Limits} {block : Bytes} {e : HeadError}
    (h : ofBytes limits block = .error e) : e.isOfSize = false := by
  unfold ofBytes at h
  split at h
  · cases h
    rfl
  · split at h
    · cases h
      rfl
    · exact not_isOfSize_of_ofLines h

-- ======================================================= the verdict

variable {limits : Limits} {buffer : Bytes}

/-- Where the first delimiter ends within the limit, the verdict is that on
the bytes before it. -/
theorem read_of_find? {stop : Nat} (hf : Delimiter.find? buffer 0 = some stop)
    (hle : stop + Delimiter.mark.length ≤ limits.maxHead) :
    read limits buffer
      = (ofBytes limits (buffer.take stop)).map (·, stop + Delimiter.mark.length) := by
  unfold read
  rw [hf]
  exact if_neg (Nat.not_lt.2 hle)

/-- So it is no verdict about where the head ends. -/
theorem not_isOfSize_of_find? {stop : Nat} (hf : Delimiter.find? buffer 0 = some stop)
    (hle : stop + Delimiter.mark.length ≤ limits.maxHead) {e : HeadError}
    (h : read limits buffer = .error e) : e.isOfSize = false := by
  rw [read_of_find? hf hle] at h
  cases hb : ofBytes limits (buffer.take stop) with
  | error e' =>
      rw [hb] at h
      injection h with h
      exact not_isOfSize_of_ofBytes (hb.trans (congrArg _ h))
  | ok head =>
      rw [hb] at h
      cases h

/-- A buffer is incomplete just if it holds no delimiter and may still
get one within the limit. -/
theorem read_eq_incomplete_iff :
    read limits buffer = .error .incomplete
      ↔ Delimiter.find? buffer 0 = none ∧ buffer.length ≤ limits.maxHead := by
  cases hf : Delimiter.find? buffer 0 with
  | none =>
      unfold read
      rw [hf]
      by_cases hl : limits.maxHead < buffer.length
      · simp [hl]
      · simp [hl, Nat.le_of_not_lt hl]
  | some stop =>
      simp only [reduceCtorEq, false_and, iff_false]
      intro h
      by_cases hle : stop + Delimiter.mark.length ≤ limits.maxHead
      · cases not_isOfSize_of_find? hf hle h
      · unfold read at h
        rw [hf] at h
        dsimp only at h
        rw [if_pos (Nat.lt_of_not_le hle)] at h
        cases h

/-- A head is too large just if so many bytes have arrived and no delimiter
ends within the limit. -/
theorem read_eq_headTooLarge_iff {limit : Nat} :
    read limits buffer = .error (.headTooLarge limit)
      ↔ limit = limits.maxHead ∧ limits.maxHead < buffer.length ∧
        ¬ Delimiter.mark <:+: buffer.take limits.maxHead := by
  cases hf : Delimiter.find? buffer 0 with
  | none =>
      have hnone : ¬ Delimiter.mark <:+: buffer.take limits.maxHead :=
        Delimiter.find?_eq_none_iff_not_infix.1 (Delimiter.find?_take _ hf)
      unfold read
      rw [hf]
      by_cases hl : limits.maxHead < buffer.length
      · simp [hl, hnone, eq_comm]
      · simp [hl]
  | some stop =>
      rw [Delimiter.infix_take_iff hf]
      by_cases hle : stop + Delimiter.mark.length ≤ limits.maxHead
      · simp only [hle, not_true, and_false, iff_false]
        intro h
        cases not_isOfSize_of_find? hf hle h
      · have hlt := Nat.lt_of_not_le hle
        have hlen := Nat.lt_of_lt_of_le hlt (Delimiter.le_of_find? hf)
        unfold read
        rw [hf]
        simp [hlt, hlen, eq_comm]

-- ================================================ what a head takes up

/-- A head that was read declares no longer body than there may be. -/
theorem contentLength_le_of_read {head : Head} {consumed : Nat}
    (h : read limits buffer = .ok (head, consumed)) :
    head.contentLength ≤ limits.maxBody.toNat :=
  (spelledBy_of_read h).2.2.2.body_le

/-- No head takes up fewer bytes than the shortest of all. -/
theorem sixteen_le_of_read {head : Head} {consumed : Nat}
    (h : read limits buffer = .ok (head, consumed)) : 16 ≤ consumed := by
  obtain ⟨-, hlen, ⟨text, htext, lines, -, hspelled⟩, hwell⟩ := spelledBy_of_read h
  have hline := hwell.line.le_length_chars
  have hchars : 16 ≤ text.toList.length := by
    rw [hspelled]
    simp only [List.flatMap_cons, List.length_append, List.length_cons, List.length_nil]
    omega
  have hbytes := Text.Utf8.length_le_encodeChars text.toList
  have htake : Text.Utf8.encodeChars text.toList = buffer.take consumed :=
    (Text.Utf8.decode?_eq_some_iff.1 htext).symm
  rw [htake, List.length_take_of_le hlen] at hbytes
  omega

/-- A head that was read ends with the first delimiter. -/
theorem find?_of_read {head : Head} {consumed : Nat}
    (h : read limits buffer = .ok (head, consumed)) :
    ∃ stop, Delimiter.find? buffer 0 = some stop ∧ consumed = stop + Delimiter.mark.length := by
  unfold read at h
  split at h
  · split at h <;> cases h
  · next stop hf =>
    split at h
    · cases h
    · cases hb : ofBytes limits (buffer.take stop) with
      | error e =>
          rw [hb] at h
          cases h
      | ok head' =>
          rw [hb] at h
          cases h
          exact ⟨stop, hf, rfl⟩

/-- So it takes up more than any first bytes that hold no delimiter. -/
theorem lt_of_find?_take {k : Nat} {head : Head} {consumed : Nat}
    (hf : Delimiter.find? (buffer.take k) 0 = none)
    (h : read limits buffer = .ok (head, consumed)) : k < consumed := by
  obtain ⟨stop, hfirst, rfl⟩ := find?_of_read h
  have hnone := Delimiter.find?_eq_none_iff_not_infix.1 hf
  rw [Delimiter.infix_take_iff hfirst] at hnone
  exact Nat.lt_of_not_le hnone

-- ======================================================= what follows

/-- Whatever arrives after a verdict does not change it. -/
theorem read_append (ext : Bytes) (h : read limits buffer ≠ .error .incomplete) :
    read limits (buffer ++ ext) = read limits buffer := by
  cases hf : Delimiter.find? buffer 0 with
  | some stop =>
      have hlen : stop ≤ buffer.length := by
        have := Delimiter.le_of_find? hf
        omega
      unfold read
      rw [Delimiter.find?_append ext hf, hf]
      simp only [List.take_append_of_le_length hlen]
  | none =>
      have hl : limits.maxHead < buffer.length := by
        refine Nat.lt_of_not_le fun hle => h ?_
        exact read_eq_incomplete_iff.2 ⟨hf, hle⟩
      -- the bytes within the limit are the old ones, which hold no delimiter
      have htake : (buffer ++ ext).take limits.maxHead = buffer.take limits.maxHead :=
        List.take_append_of_le_length (Nat.le_of_lt hl)
      have hnone : ¬ Delimiter.mark <:+: buffer.take limits.maxHead :=
        Delimiter.find?_eq_none_iff_not_infix.1 (Delimiter.find?_take _ hf)
      have hgrown : limits.maxHead < (buffer ++ ext).length := by
        rw [List.length_append]
        omega
      rw [read_eq_headTooLarge_iff.2 ⟨rfl, hl, hnone⟩]
      exact read_eq_headTooLarge_iff.2 ⟨rfl, hgrown, htake ▸ hnone⟩

/-- Of any bytes, the head at their front is incomplete just if they hold
no delimiter and are within the limit, and too large just if they are
beyond it and no delimiter ends within it. Any other verdict is the same
for all bytes that begin alike up to the end of the first delimiter. So
every verdict but that the head is incomplete stands, whatever follows. -/
theorem verdict_is_final (limits : Limits) (buffer : Bytes) :
    (read limits buffer = .error .incomplete
      ↔ ¬ Delimiter.mark <:+: buffer ∧ buffer.length ≤ limits.maxHead) ∧
    (∀ limit, read limits buffer = .error (.headTooLarge limit)
      ↔ limit = limits.maxHead ∧ limits.maxHead < buffer.length ∧
        ¬ Delimiter.mark <:+: buffer.take limits.maxHead) ∧
    ((∀ e, read limits buffer = .error e → e.isOfSize = false) →
      ∃ front, front ++ Delimiter.mark <+: buffer ∧
        ¬ Delimiter.mark <:+: (front ++ Delimiter.mark).dropLast ∧
        ∀ other, front ++ Delimiter.mark <+: other → read limits other = read limits buffer) ∧
    (read limits buffer ≠ .error .incomplete →
      ∀ ext, read limits (buffer ++ ext) = read limits buffer) := by
  have hincomplete : read limits buffer = .error .incomplete
      ↔ ¬ Delimiter.mark <:+: buffer ∧ buffer.length ≤ limits.maxHead := by
    rw [read_eq_incomplete_iff, Delimiter.find?_eq_none_iff_not_infix]
  refine ⟨hincomplete, fun limit => read_eq_headTooLarge_iff, fun hother => ?_,
    fun h ext => read_append ext h⟩
  cases hf : Delimiter.find? buffer 0 with
  | none =>
      -- without a delimiter the verdict is one of the two about the size
      by_cases hl : buffer.length ≤ limits.maxHead
      · cases hother _ (read_eq_incomplete_iff.2 ⟨hf, hl⟩)
      · have hnone := Delimiter.find?_eq_none_iff_not_infix.1
          (Delimiter.find?_take limits.maxHead hf)
        cases hother _ (read_eq_headTooLarge_iff.2 ⟨rfl, Nat.lt_of_not_le hl, hnone⟩)
  | some stop =>
      obtain ⟨hfront, hfirst⟩ := Delimiter.exists_first_of_find? hf
      -- the bytes up to the end of the delimiter have a verdict of their own
      have hown : Delimiter.mark <:+: buffer.take stop ++ Delimiter.mark :=
        (List.suffix_append _ _).isInfix
      have hdecided : read limits (buffer.take stop ++ Delimiter.mark) ≠ .error .incomplete := by
        rw [Ne, read_eq_incomplete_iff, Delimiter.find?_eq_none_iff_not_infix]
        exact fun h => h.1 hown
      have hsame {bytes : Bytes} (hp : buffer.take stop ++ Delimiter.mark <+: bytes) :
          read limits bytes = read limits (buffer.take stop ++ Delimiter.mark) := by
        obtain ⟨ext, rfl⟩ := hp
        exact read_append ext hdecided
      exact ⟨buffer.take stop, hfront, hfirst, fun other hp => (hsame hp).trans (hsame hfront).symm⟩

/-- The shortest head of all, of just as many bytes as there may be: it is
accepted, whatever follows, and it would not be if one more were due. -/
theorem verdict_is_final_at_limit :
    let bytes := Text.Utf8.encode "A / HTTP/1.1\r\n\r\n"
    bytes.length = 16 ∧
      (∀ ext, (read { maxHead := 16 } (bytes ++ ext)).toOption.map (·.2) = some 16) ∧
      (∀ ext, read { maxHead := 15 } (bytes ++ ext) = .error (.headTooLarge 15)) ∧
      ∃ front, front ++ Delimiter.mark <+: bytes ∧
        ∀ other, front ++ Delimiter.mark <+: other →
          (read { maxHead := 16 } other).toOption.map (·.2) = some 16 := by
  have hread : (read { maxHead := 16 } (Text.Utf8.encode "A / HTTP/1.1\r\n\r\n")).toOption.map
      (·.2) = some 16 := by
    decide +kernel
  have hlarge : read { maxHead := 15 } (Text.Utf8.encode "A / HTTP/1.1\r\n\r\n")
      = .error (.headTooLarge 15) := by
    decide +kernel
  have hok : ∀ e, read { maxHead := 16 } (Text.Utf8.encode "A / HTTP/1.1\r\n\r\n") ≠ .error e := by
    intro e he
    rw [he] at hread
    cases hread
  obtain ⟨-, -, hother, hext⟩ :=
    verdict_is_final { maxHead := 16 } (Text.Utf8.encode "A / HTTP/1.1\r\n\r\n")
  obtain ⟨-, -, -, hext'⟩ :=
    verdict_is_final { maxHead := 15 } (Text.Utf8.encode "A / HTTP/1.1\r\n\r\n")
  obtain ⟨front, hfront, -, hsame⟩ := hother fun e he => absurd he (hok e)
  refine ⟨by decide, fun ext => ?_, fun ext => ?_, front, hfront, fun other hp => ?_⟩
  · rw [hext (hok _) ext]
    exact hread
  · rw [hext' (by rw [hlarge]; nofun) ext]
    exact hlarge
  · rw [hsame other hp]
    exact hread

end Head

end WireHttp
