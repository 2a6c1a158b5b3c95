/-
The grammar of a request head, and that the reader accepts what it says
and nothing else (`Head.read_eq_ok_iff_spelledBy`).

The grammar speaks of a head and of a text that spells it. The lines of
the text are the request line, then one line for each header in order,
then an empty one; a header line leaves open how much white space stands
around the value, and nothing else is left open (`Head.SpelledBy`). What
the parts may hold, and that the headers tell the length of the body, is
said of the head alone (`Head.WellFormed`).

The reader is taken apart as it is built: for each of its parts there is
one equivalence between what it accepts and what the grammar says. In the
direction from the grammar to the reader one thing must be shown of the
whole: that it is cut where it was put together. No part of a line holds
a carriage return and no line is empty, so the lines end where they are
written to end, and the first delimiter is the one that was written.
-/
import Mathlib.Data.List.Forall2
import WireHttp.Head.Reader
import WireHttp.Proofs.Head.Delimiter
import WireHttp.Proofs.Text.Lines
import WireHttp.Proofs.Text.Numeral

namespace WireHttp

-- =========================================================== the grammar

/-- A method is a token, and goes by the name of the common verb that the
token is, if it is one. -/
structure Method.WellFormed (m : Method) : Prop where
  token : isToken m.text.toList = true
  verb : ∀ token, m = .other token → ∀ v ∈ verbs, v.text ≠ token

namespace RequestLine

/-- What a request line may say: of the target no byte is a blank or an
ASCII control. -/
structure WellFormed (l : RequestLine) : Prop where
  method : l.method.WellFormed
  target_ne : l.target ≠ ""
  target : ∀ b ∈ Text.Utf8.encode l.target, 0x20 < b.toNat ∧ b.toNat ≠ 0x7F

/-- The characters of a request line. -/
def chars (l : RequestLine) : List Char :=
  l.method.text.toList ++ ' ' :: (l.target.toList ++ ' ' :: l.version.text.toList)

end RequestLine

/-- A header line that a request may hold: a token, and a value with no
ASCII control but the tab and no optional white space at either end. -/
structure Header.WellFormed (h : Header) : Prop where
  name : isToken h.name.toList = true
  value : ∀ c ∈ h.value.toList, c = '\t' ∨ 0x20 ≤ c.toNat ∧ c.toNat ≠ 0x7F
  front : ∀ c ∈ h.value.toList.head?, Text.isOws c = false
  back : ∀ c ∈ h.value.toList.getLast?, Text.isOws c = false

/-- A line that spells a header: its name, a colon, and its value with any
optional white space around it. -/
def Header.SpelledBy (h : Header) (line : List Char) : Prop :=
  ∃ before after, (∀ c ∈ before, Text.isOws c = true) ∧ (∀ c ∈ after, Text.isOws c = true) ∧
    line = h.name.toList ++ ':' :: (before ++ (h.value.toList ++ after))

/-- The header lines tell the length of the body: each that is to tell it
is a digit string of it, and it is 0 if there is none. -/
structure Headers.Tell (hs : Headers) (length : Nat) : Prop where
  digits : ∀ h ∈ hs, h.isNamed "Content-Length" = true →
    Text.Decimal.isDigits h.value.toList = true ∧ Text.Decimal.value h.value.toList = length
  none : (∀ h ∈ hs, h.isNamed "Content-Length" = false) → length = 0

namespace Head

/-- The request line of a head. -/
def requestLine (head : Head) : RequestLine :=
  ⟨head.method, head.target, head.version⟩

/-- A text that spells a head: its lines, each with a line end, and an
empty line. -/
def SpelledBy (head : Head) (text : List Char) : Prop :=
  ∃ lines, List.Forall₂ Header.SpelledBy head.headers lines ∧
    text = (head.requestLine.chars :: lines).flatMap (· ++ ['\r', '\n']) ++ ['\r', '\n']

/-- What a head may say, within the limit on the length of a body. -/
structure WellFormed (limits : Limits) (head : Head) : Prop where
  line : head.requestLine.WellFormed
  headers : ∀ h ∈ head.headers, h.WellFormed
  plain : ∀ h ∈ head.headers, h.isNamed "Transfer-Encoding" = false
  length : head.headers.Tell head.contentLength
  body_le : head.contentLength ≤ limits.maxBody.toNat

end Head

-- ============================================================ characters

theorem isTargetChar_iff {c : Char} :
    isTargetChar c = true ↔ 0x20 < c.toNat ∧ c.toNat ≠ 0x7F := by
  simp [isTargetChar]

theorem isValueChar_iff {c : Char} :
    isValueChar c = true ↔ c = '\t' ∨ 0x20 ≤ c.toNat ∧ c.toNat ≠ 0x7F := by
  simp [isValueChar]

theorem notMem_of_isToken {cs : List Char} (h : isToken cs = true) {c : Char}
    (hc : isTokenChar c = false) : c ∉ cs := by
  intro hm
  rw [(isToken_iff.1 h).2 c hm] at hc
  cases hc

-- ====================================================== the request line

/-- A method is read from its own text, if it goes by its proper name. -/
theorem Method.ofText?_eq_some_iff {s : String} {m : Method} :
    ofText? s = some m ↔ m.text = s ∧ m.WellFormed := by
  constructor
  · intro h
    obtain ⟨rfl, htoken⟩ := ofText?_eq_some h
    refine ⟨rfl, htoken, ?_⟩
    rintro token rfl v hv rfl
    have hfound : (verbs.find? (·.text = v.text)).isSome = true :=
      List.find?_isSome.2 ⟨v, hv, by simp⟩
    obtain ⟨w, hw⟩ := Option.isSome_iff_exists.1 hfound
    have hverb : w = .other v.text := by
      have : ofText? v.text = some w := by
        unfold ofText?
        rw [hw]
      exact Option.some.inj (this.symm.trans h)
    have hmem := List.mem_of_find?_eq_some hw
    rw [hverb] at hmem
    simp [verbs] at hmem
  · rintro ⟨rfl, htoken, hproper⟩
    cases m with
    | other token =>
        have hnone : verbs.find? (·.text = token) = none :=
          List.find?_eq_none.2 fun v hv => by simpa using hproper token rfl v hv
        unfold ofText?
        rw [show (Method.other token).text = token from rfl, hnone]
        exact if_pos htoken
    | _ => decide

theorem Version.read_eq_ok_iff {cs : List Char} {v : Version} :
    Version.read cs = .ok v ↔ cs = v.text.toList := by
  constructor
  · intro h
    unfold Version.read at h
    split at h
    · next heq =>
      cases h
      exact heq
    · split at h
      · next heq =>
        cases h
        exact heq
      · split at h
        · split at h <;> cases h
        · cases h
  · rintro rfl
    cases v with
    | http10 =>
        unfold Version.read
        rw [if_neg (by decide), if_pos rfl]
    | http11 => exact if_pos rfl

namespace RequestLine

/-- The check on a target, as it is made and as it is meant. -/
theorem target_iff {cs : List Char} :
    (cs.isEmpty || !cs.all isTargetChar) = false ↔
      String.ofList cs ≠ "" ∧
        ∀ b ∈ Text.Utf8.encode (String.ofList cs), 0x20 < b.toNat ∧ b.toNat ≠ 0x7F := by
  rw [Text.Utf8.encode, String.toList_ofList,
    Text.Utf8.forall_mem_encodeChars_iff (P := fun n => 0x20 < n ∧ n ≠ 0x7F) (by omega),
    Bool.or_eq_false_iff, List.isEmpty_eq_false_iff, Bool.not_eq_false', List.all_eq_true]
  simp only [isTargetChar_iff, ne_eq, String.ofList_eq_empty_iff]

/-- A request line is accepted if it is spelled as one that may stand. -/
theorem read_eq_ok_iff {line : List Char} {l : RequestLine} :
    read line = .ok l ↔ line = l.chars ∧ l.WellFormed := by
  constructor
  · intro h
    unfold read at h
    split at h
    · next method rest hmethod =>
      split at h
      · next target version htarget =>
        split at h
        · next m hm =>
          split at h
          · cases h
          · next hchars =>
            simp only [bind, Except.bind, pure, Except.pure] at h
            split at h
            · cases h
            · next v hv =>
              cases h
              obtain ⟨rfl, -⟩ := Text.cut?_eq_some_iff.1 hmethod
              obtain ⟨rfl, -⟩ := Text.cut?_eq_some_iff.1 htarget
              obtain ⟨htext, hwell⟩ := Method.ofText?_eq_some_iff.1 hm
              obtain ⟨hne, hbytes⟩ := target_iff.1 (Bool.eq_false_iff.2 hchars)
              refine ⟨?_, hwell, hne, hbytes⟩
              rw [chars, htext, Version.read_eq_ok_iff.1 hv, String.toList_ofList,
                String.toList_ofList]
        · cases h
      · cases h
    · cases h
  · rintro ⟨rfl, hwell⟩
    have hchars : (l.target.toList.isEmpty || !l.target.toList.all isTargetChar) = false := by
      rw [target_iff, String.ofList_toList]
      exact ⟨hwell.target_ne, hwell.target⟩
    have hblank : ' ' ∉ l.target.toList := by
      intro hm
      have hbyte := hwell.target 0x20 ((Text.Utf8.mem_encodeChars_iff (a := ' ') (by decide)).2 hm)
      exact absurd hbyte.1 (by decide)
    have hmethod : Text.cut? ' ' l.chars
        = some (l.method.text.toList, l.target.toList ++ ' ' :: l.version.text.toList) :=
      Text.cut?_eq_some_iff.2 ⟨rfl, notMem_of_isToken hwell.method.token (by decide)⟩
    have htarget : Text.cut? ' ' (l.target.toList ++ ' ' :: l.version.text.toList)
        = some (l.target.toList, l.version.text.toList) :=
      Text.cut?_eq_some_iff.2 ⟨rfl, hblank⟩
    unfold read
    simp only [hmethod, htarget, String.ofList_toList,
      Method.ofText?_eq_some_iff.2 ⟨rfl, hwell.method⟩, hchars, Version.read_eq_ok_iff.2 rfl]
    rfl

theorem WellFormed.cr_notMem_chars {l : RequestLine} (h : l.WellFormed) : '\r' ∉ l.chars := by
  have hmethod : '\r' ∉ l.method.text.toList := notMem_of_isToken h.method.token (by decide)
  have htarget : '\r' ∉ l.target.toList := by
    intro hm
    have hbyte := h.target 0x0D ((Text.Utf8.mem_encodeChars_iff (a := '\r') (by decide)).2 hm)
    exact absurd hbyte.1 (by decide)
  have hversion : '\r' ∉ l.version.text.toList := by
    cases l.version <;> decide
  simp [chars, hmethod, htarget, hversion]

/-- No request line is shorter than one with a method and a target of one
character each. -/
theorem WellFormed.le_length_chars {l : RequestLine} (h : l.WellFormed) :
    12 ≤ l.chars.length := by
  have hmethod := List.length_pos_iff.2 (isToken_iff.1 h.method.token).1
  have htarget : 0 < l.target.toList.length := by
    rw [List.length_pos_iff, Ne, String.toList_eq_nil_iff]
    exact h.target_ne
  have hversion : l.version.text.toList.length = 8 := by
    cases l.version <;> decide
  simp only [chars, List.length_append, List.length_cons]
  omega

end RequestLine

-- ======================================================= the header lines

/-- A header line is accepted if it spells a header that may stand. -/
theorem Header.read?_eq_some_iff {line : List Char} {h : Header} :
    Header.read? line = some h ↔ h.SpelledBy line ∧ h.WellFormed := by
  unfold Header.read?
  rw [Option.bind_eq_some_iff]
  constructor
  · rintro ⟨⟨name, rest⟩, hcut, hread⟩
    obtain ⟨rfl, -⟩ := Text.cut?_eq_some_iff.1 hcut
    obtain ⟨hfront, hback, before, after, hbefore, hafter, hrest⟩ :=
      Text.trimBy_eq_iff.1 (rfl : Text.trimBy Text.isOws rest = _)
    dsimp only at hread
    split at hread
    · next hcheck =>
      rw [Bool.and_eq_true, List.all_eq_true] at hcheck
      cases hread
      refine ⟨⟨before, after, hbefore, hafter, ?_⟩, ?_⟩
      · rw [String.toList_ofList, String.toList_ofList, ← hrest]
      · refine ⟨?_, ?_, ?_, ?_⟩ <;> rw [String.toList_ofList]
        · exact hcheck.1
        · exact fun c hc => isValueChar_iff.1 (hcheck.2 c hc)
        · exact hfront
        · exact hback
    · cases hread
  · rintro ⟨⟨before, after, hbefore, hafter, rfl⟩, hwell⟩
    refine ⟨(h.name.toList, before ++ (h.value.toList ++ after)),
      Text.cut?_eq_some_iff.2 ⟨rfl, notMem_of_isToken hwell.name (by decide)⟩, ?_⟩
    have htrim : Text.trimBy Text.isOws (before ++ (h.value.toList ++ after)) = h.value.toList :=
      Text.trimBy_eq_iff.2 ⟨hwell.front, hwell.back, before, after, hbefore, hafter, rfl⟩
    have hvalue : h.value.toList.all isValueChar = true :=
      List.all_eq_true.2 fun c hc => isValueChar_iff.2 (hwell.value c hc)
    dsimp only
    rw [htrim, hwell.name, hvalue]
    simp only [String.ofList_toList]
    rfl

theorem Header.SpelledBy.cr_notMem {h : Header} {line : List Char} (hs : h.SpelledBy line)
    (hw : h.WellFormed) : '\r' ∉ line := by
  obtain ⟨before, after, hbefore, hafter, rfl⟩ := hs
  have hname : '\r' ∉ h.name.toList := notMem_of_isToken hw.name (by decide)
  have hows {cs : List Char} (hcs : ∀ c ∈ cs, Text.isOws c = true) : '\r' ∉ cs :=
    fun hm => absurd (hcs '\r' hm) (by decide)
  have hvalue : '\r' ∉ h.value.toList := by
    intro hm
    rcases hw.value '\r' hm with he | ⟨hlow, -⟩
    · exact absurd he (by decide)
    · exact absurd hlow (by decide)
  simp [hname, hows hbefore, hvalue, hows hafter]

theorem Header.SpelledBy.ne_nil {h : Header} {line : List Char} (hs : h.SpelledBy line) :
    line ≠ [] := by
  obtain ⟨before, after, -, -, rfl⟩ := hs
  simp

/-- A block is accepted line by line. -/
theorem Headers.read?_eq_some_iff {lines : List (List Char)} {hs : Headers} :
    Headers.read? lines = some hs ↔
      List.Forall₂ Header.SpelledBy hs lines ∧ ∀ h ∈ hs, h.WellFormed := by
  induction lines generalizing hs with
  | nil =>
      rw [Headers.read?, Option.some.injEq, List.forall₂_nil_right_iff]
      constructor
      · rintro rfl
        exact ⟨rfl, nofun⟩
      · exact fun h => h.1.symm
  | cons line lines ih =>
      rw [Headers.read?, List.forall₂_cons_right_iff]
      constructor
      · intro h
        split at h
        · next k ks hk hks =>
          cases h
          obtain ⟨hspelled, hwell⟩ := Header.read?_eq_some_iff.1 hk
          obtain ⟨hrest, hwells⟩ := ih.1 hks
          exact ⟨⟨k, ks, hspelled, hrest, rfl⟩, List.forall_mem_cons.2 ⟨hwell, hwells⟩⟩
        · cases h
      · rintro ⟨⟨k, ks, hspelled, hrest, rfl⟩, hwell⟩
        obtain ⟨hk, hks⟩ := List.forall_mem_cons.1 hwell
        rw [Header.read?_eq_some_iff.2 ⟨hspelled, hk⟩, ih.2 ⟨hrest, hks⟩]

-- ==================================================== the length of a body

theorem Headers.mem_declaredLengths {hs : Headers} {d : Option Nat} :
    d ∈ hs.declaredLengths ↔
      ∃ h ∈ hs, h.isNamed "Content-Length" = true ∧
        Text.Decimal.readDigits? h.value.toList = d := by
  unfold Headers.declaredLengths
  simp only [List.mem_map, List.mem_filter, and_assoc]

/-- The length is read if all that is declared is that length, and it is 0
if nothing is. -/
private theorem Headers.bodyLength?_eq_some_iff_declared {hs : Headers} {n : Nat} :
    hs.bodyLength? = some n ↔
      (∀ d ∈ hs.declaredLengths, d = some n) ∧ (hs.declaredLengths = [] → n = 0) := by
  unfold Headers.bodyLength?
  cases hs.declaredLengths with
  | nil => simp [eq_comm]
  | cons d rest =>
      dsimp only
      rw [List.forall_mem_cons]
      constructor
      · intro h
        split at h
        · next hsame =>
          rw [List.all_eq_true] at hsame
          exact ⟨⟨h, fun e he => (beq_iff_eq.1 (hsame e he)).trans h⟩, nofun⟩
        · cases h
      · rintro ⟨⟨rfl, hrest⟩, -⟩
        exact if_pos (List.all_eq_true.2 fun e he => beq_iff_eq.2 (hrest e he))

/-- The length of the body is read if the header lines tell it, and if it
fits in a word. -/
theorem Headers.bodyLength?_eq_some_iff {hs : Headers} {n : Nat} :
    hs.bodyLength? = some n ↔ hs.Tell n ∧ n < Text.Decimal.wordSize := by
  have hnil : hs.declaredLengths = [] ↔ ∀ h ∈ hs, h.isNamed "Content-Length" = false := by
    rw [Headers.declaredLengths, List.map_eq_nil_iff, List.filter_eq_nil_iff]
    simp only [Bool.not_eq_true]
  rw [Headers.bodyLength?_eq_some_iff_declared, hnil]
  constructor
  · rintro ⟨hall, hzero⟩
    have hread : ∀ h ∈ hs, h.isNamed "Content-Length" = true →
        Text.Decimal.readDigits? h.value.toList = some n :=
      fun h hm hn => hall _ (Headers.mem_declaredLengths.2 ⟨h, hm, hn, rfl⟩)
    refine ⟨⟨fun h hm hn => ?_, hzero⟩, ?_⟩
    · obtain ⟨hdigits, hvalue, -⟩ := Text.Decimal.readDigits?_eq_some_iff.1 (hread h hm hn)
      exact ⟨hdigits, hvalue⟩
    · cases hd : hs.declaredLengths with
      | nil =>
          rw [hzero (hnil.1 hd)]
          decide
      | cons d rest =>
          obtain ⟨h, hm, hn, -⟩ := Headers.mem_declaredLengths.1 (hd ▸ List.mem_cons_self)
          exact (Text.Decimal.readDigits?_eq_some_iff.1 (hread h hm hn)).2.2
  · rintro ⟨htell, hword⟩
    refine ⟨fun d hd => ?_, htell.none⟩
    obtain ⟨h, hm, hn, rfl⟩ := Headers.mem_declaredLengths.1 hd
    obtain ⟨hdigits, hvalue⟩ := htell.digits h hm hn
    exact Text.Decimal.readDigits?_eq_some_iff.2 ⟨hdigits, hvalue, hword⟩

-- ========================================================= the whole head

namespace Head

variable {limits : Limits}

/-- Lines are accepted as a head if they spell one that may stand. -/
theorem ofLines_eq_ok_iff {first : List Char} {rest : List (List Char)} {head : Head} :
    ofLines limits first rest = .ok head ↔
      first = head.requestLine.chars ∧ List.Forall₂ Header.SpelledBy head.headers rest ∧
        head.WellFormed limits := by
  constructor
  · intro h
    unfold ofLines at h
    simp only [bind, Except.bind, pure, Except.pure] at h
    split at h
    · cases h
    · next line hline =>
      split at h
      · next headers hheaders =>
        split at h
        · cases h
        · next hplain =>
          split at h
          · next length hlength =>
            split at h
            · cases h
            · next hle =>
              cases h
              obtain ⟨hchars, hwell⟩ := RequestLine.read_eq_ok_iff.1 hline
              obtain ⟨hspelled, hwells⟩ := Headers.read?_eq_some_iff.1 hheaders
              refine ⟨hchars, hspelled, hwell, hwells, ?_, ?_, Nat.le_of_not_lt hle⟩
              · rw [List.any_eq_true] at hplain
                exact fun k hk => Bool.eq_false_iff.2 fun hn => hplain ⟨k, hk, hn⟩
              · exact (Headers.bodyLength?_eq_some_iff.1 hlength).1
          · cases h
      · cases h
  · rintro ⟨rfl, hspelled, hwell⟩
    have hplain : head.headers.any (·.isNamed "Transfer-Encoding") = false := by
      rw [List.any_eq_false]
      intro k hk
      rw [hwell.plain k hk]
      exact Bool.false_ne_true
    have hlength : head.headers.bodyLength? = some head.contentLength :=
      Headers.bodyLength?_eq_some_iff.2
        ⟨hwell.length, Nat.lt_of_le_of_lt hwell.body_le limits.maxBody.toNat_lt⟩
    unfold ofLines
    simp only [RequestLine.read_eq_ok_iff.2 ⟨rfl, hwell.line⟩,
      Headers.read?_eq_some_iff.2 ⟨hspelled, hwell.headers⟩, hlength, hplain,
      Nat.not_lt.2 hwell.body_le]
    rfl

/-- The lines of a head, as they are told apart: none is empty, and none
holds a carriage return. -/
theorem lines_of_spelledBy {head : Head} {lines : List (List Char)}
    (hline : head.requestLine.WellFormed) (hheaders : ∀ h ∈ head.headers, h.WellFormed)
    (hs : List.Forall₂ Header.SpelledBy head.headers lines) :
    ∀ line ∈ head.requestLine.chars :: lines, line ≠ [] ∧ '\r' ∉ line := by
  have hrest : ∀ {ks : Headers} {ls : List (List Char)}, List.Forall₂ Header.SpelledBy ks ls →
      (∀ k ∈ ks, k.WellFormed) → ∀ line ∈ ls, line ≠ [] ∧ '\r' ∉ line := by
    intro ks ls hspelled hwell
    induction hspelled with
    | nil => exact nofun
    | cons hfirst hrest ih =>
        rw [List.forall_mem_cons] at hwell ⊢
        exact ⟨⟨hfirst.ne_nil, hfirst.cr_notMem hwell.1⟩, ih hwell.2⟩
  rw [List.forall_mem_cons]
  exact ⟨⟨by simp [RequestLine.chars], hline.cr_notMem_chars⟩, hrest hs hheaders⟩

/-- The bytes of lines are judged by these lines. -/
theorem ofBytes_joinLines {first : List Char} {rest : List (List Char)}
    (h : ∀ line ∈ first :: rest, '\r' ∉ line) :
    ofBytes limits (Text.Utf8.encodeChars (Text.joinLines (first :: rest)))
      = ofLines limits first rest := by
  unfold ofBytes
  rw [Text.Utf8.decode?_encodeChars]
  dsimp only
  rw [String.toList_ofList, Text.lines_joinLines (List.cons_ne_nil first rest) h]

/-- Bytes are accepted as a head, its delimiter not among them, if they
are those of lines that spell one that may stand. -/
theorem ofBytes_eq_ok_iff {block : Bytes} {head : Head} :
    ofBytes limits block = .ok head ↔
      (∃ lines, List.Forall₂ Header.SpelledBy head.headers lines ∧
        block = Text.Utf8.encodeChars (Text.joinLines (head.requestLine.chars :: lines))) ∧
      head.WellFormed limits := by
  constructor
  · intro h
    unfold ofBytes at h
    split at h
    · cases h
    · next text htext =>
      split at h
      · cases h
      · next first rest hlines =>
        obtain ⟨rfl, hspelled, hwell⟩ := ofLines_eq_ok_iff.1 h
        refine ⟨⟨rest, hspelled, ?_⟩, hwell⟩
        rw [← hlines, Text.joinLines_lines]
        exact Text.Utf8.decode?_eq_some_iff.1 htext
  · rintro ⟨⟨lines, hspelled, rfl⟩, hwell⟩
    have hlines := lines_of_spelledBy hwell.line hwell.headers hspelled
    rw [ofBytes_joinLines fun line hline => (hlines line hline).2]
    exact ofLines_eq_ok_iff.2 ⟨rfl, hspelled, hwell⟩

/-- The bytes of a text that spells a head are those of its lines with the
delimiter after them. -/
theorem encodeChars_spelling (head : Head) (lines : List (List Char)) :
    Text.Utf8.encodeChars
        ((head.requestLine.chars :: lines).flatMap (· ++ ['\r', '\n']) ++ ['\r', '\n'])
      = Text.Utf8.encodeChars (Text.joinLines (head.requestLine.chars :: lines))
        ++ Delimiter.mark := by
  rw [← Text.joinLines_append_lineEnd, Text.Utf8.encodeChars_append, Text.Utf8.encodeChars_append,
    Text.Utf8.encodeChars_lineEnd, List.append_assoc]
  rfl

/-- The front of bytes that begin with those of a text that spells a head is
judged by the lines of the text, whatever the head says of its body. -/
theorem read_spelling {head : Head} {lines : List (List Char)}
    (hline : head.requestLine.WellFormed) (hheaders : ∀ h ∈ head.headers, h.WellFormed)
    (hs : List.Forall₂ Header.SpelledBy head.headers lines) {text : List Char}
    (htext : text = (head.requestLine.chars :: lines).flatMap (· ++ ['\r', '\n']) ++ ['\r', '\n'])
    (hle : (Text.Utf8.encodeChars text).length ≤ limits.maxHead) (rest : Bytes) :
    read limits (Text.Utf8.encodeChars text ++ rest)
      = (ofLines limits head.requestLine.chars lines).map
          (·, (Text.Utf8.encodeChars text).length) := by
  subst htext
  have hlines := lines_of_spelledBy hline hheaders hs
  have hbytes : ∀ l ∈ Text.Utf8.encodeChars head.requestLine.chars
      :: lines.map Text.Utf8.encodeChars, l ≠ [] ∧ 13 ∉ l := by
    intro l hl
    rw [← List.map_cons] at hl
    obtain ⟨cs, hcs, rfl⟩ := List.mem_map.1 hl
    obtain ⟨hne, hcr⟩ := hlines cs hcs
    exact ⟨Text.Utf8.encodeChars_ne_nil hne, Text.Utf8.cr_notMem_encodeChars hcr⟩
  have hfind := Delimiter.find?_lines hbytes rest
  rw [← Text.Utf8.encodeChars_joinLines] at hfind
  have hblock : ofBytes limits _ = _ := ofBytes_joinLines fun line h => (hlines line h).2
  rw [encodeChars_spelling, List.length_append] at hle ⊢
  unfold read
  rw [hfind]
  dsimp only
  rw [if_neg (Nat.not_lt.2 hle), List.append_assoc, List.take_left, hblock]

/-- A head that may stand is read from the front of any bytes that begin
with those of a text that spells it. -/
theorem read_of_spelledBy {head : Head} {text : List Char} (hs : head.SpelledBy text)
    (hw : head.WellFormed limits) (hle : (Text.Utf8.encodeChars text).length ≤ limits.maxHead)
    (rest : Bytes) :
    read limits (Text.Utf8.encodeChars text ++ rest)
      = .ok (head, (Text.Utf8.encodeChars text).length) := by
  obtain ⟨lines, hspelled, htext⟩ := hs
  rw [read_spelling hw.line hw.headers hspelled htext hle rest,
    ofLines_eq_ok_iff.2 ⟨rfl, hspelled, hw⟩]
  rfl

/-- The bytes of a head that was read are those of a text that spells it,
and it may stand. -/
theorem spelledBy_of_read {buffer : Bytes} {head : Head} {n : Nat}
    (h : read limits buffer = .ok (head, n)) :
    n ≤ limits.maxHead ∧ n ≤ buffer.length ∧
      (∃ text, Text.Utf8.decode? (buffer.take n) = some text ∧ head.SpelledBy text.toList) ∧
      head.WellFormed limits := by
  unfold read at h
  split at h
  · split at h <;> cases h
  · next stop hfind =>
    split at h
    · cases h
    · next hle =>
      cases hblock : ofBytes limits (buffer.take stop) with
      | error e =>
          rw [hblock] at h
          cases h
      | ok head' =>
          rw [hblock] at h
          cases h
          obtain ⟨⟨lines, hspelled, hbytes⟩, hwell⟩ := ofBytes_eq_ok_iff.1 hblock
          obtain ⟨-, hstands, -⟩ := Delimiter.find?_eq_some_iff.1 hfind
          have htake : buffer.take (stop + Delimiter.mark.length)
              = buffer.take stop ++ Delimiter.mark := by
            rw [List.take_add, ← List.prefix_iff_eq_take.1 hstands]
          refine ⟨Nat.le_of_not_lt hle, Delimiter.le_of_find? hfind, ⟨_, ?_, lines, hspelled,
            String.toList_ofList⟩, hwell⟩
          rw [htake, hbytes, ← encodeChars_spelling]
          exact Text.Utf8.decode?_encodeChars _

/-- A head is read from the front of a buffer, of the bytes up to a place,
just if these are within the limit and are the UTF-8 of a text that spells
the head, and the head may stand. -/
theorem read_eq_ok_iff_spelledBy {buffer : Bytes} {head : Head} {n : Nat} :
    read limits buffer = .ok (head, n) ↔
      n ≤ limits.maxHead ∧ n ≤ buffer.length ∧
        (∃ text, Text.Utf8.decode? (buffer.take n) = some text ∧ head.SpelledBy text.toList) ∧
        head.WellFormed limits := by
  refine ⟨spelledBy_of_read, ?_⟩
  rintro ⟨hlimit, hlen, ⟨text, htext, hspelled⟩, hwell⟩
  have hbytes : Text.Utf8.encodeChars text.toList = buffer.take n :=
    (Text.Utf8.decode?_eq_some_iff.1 htext).symm
  have hsize : (Text.Utf8.encodeChars text.toList).length = n := by
    rw [hbytes, List.length_take, Nat.min_eq_left hlen]
  have hread := read_of_spelledBy hspelled hwell (hsize ▸ hlimit) (buffer.drop n)
  rwa [hsize, hbytes, List.take_append_drop] at hread

end Head

end WireHttp
