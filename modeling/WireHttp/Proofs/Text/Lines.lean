/-
Lines, as characters and as bytes. Lines that hold no carriage return
come back when their text is cut at its line ends (`lines_joinLines`).
The bytes of a line hold no carriage return either, because an ASCII byte
stands in the written form of no character but its own
(`mem_encodeChars_iff`); so what is cut at the line ends of a byte stream
is cut at those of the text.
-/
import WireHttp.Text.Split
import WireHttp.Text.Utf8

namespace WireHttp.Text

-- =================================================== ASCII bytes in UTF-8

namespace Utf8

theorem encodeChar_of_ascii {c : Char} (h : c.toNat < 0x80) :
    String.utf8EncodeChar c = [UInt8.ofNat c.toNat] :=
  if_pos (Nat.le_of_lt_succ h)

/-- The bytes of a character beyond ASCII are none of ASCII's. -/
theorem high_of_mem_encodeChar {c : Char} (h : 0x80 ≤ c.toNat) {b : UInt8}
    (hb : b ∈ String.utf8EncodeChar c) : 0x80 ≤ b.toNat := by
  have hval : c.val.toNat = c.toNat := rfl
  unfold String.utf8EncodeChar at hb
  simp only [hval] at hb
  rw [if_neg (by omega)] at hb
  split at hb
  · simp only [List.mem_cons, List.not_mem_nil, or_false] at hb
    rcases hb with rfl | rfl
    all_goals rw [UInt8.toNat_ofNat']; omega
  · split at hb
    · simp only [List.mem_cons, List.not_mem_nil, or_false] at hb
      rcases hb with rfl | rfl | rfl
      all_goals rw [UInt8.toNat_ofNat']; omega
    · simp only [List.mem_cons, List.not_mem_nil, or_false] at hb
      rcases hb with rfl | rfl | rfl | rfl
      all_goals rw [UInt8.toNat_ofNat']; omega

/-- An ASCII byte stands only in its own character. -/
theorem mem_encodeChar_iff {a c : Char} (ha : a.toNat < 0x80) :
    UInt8.ofNat a.toNat ∈ String.utf8EncodeChar c ↔ c = a := by
  have hbyte : (UInt8.ofNat a.toNat).toNat = a.toNat := by
    rw [UInt8.toNat_ofNat']
    omega
  by_cases hc : c.toNat < 0x80
  · rw [encodeChar_of_ascii hc, List.mem_singleton]
    constructor
    · intro he
      have hn := congrArg UInt8.toNat he
      rw [hbyte, UInt8.toNat_ofNat'] at hn
      exact Char.toNat_inj.1 (by omega)
    · rintro rfl
      rfl
  · constructor
    · intro hm
      have := high_of_mem_encodeChar (Nat.le_of_not_lt hc) hm
      omega
    · rintro rfl
      exact absurd ha hc

/-- An ASCII byte stands in a text just if its character does. -/
theorem mem_encodeChars_iff {a : Char} {cs : List Char} (ha : a.toNat < 0x80) :
    UInt8.ofNat a.toNat ∈ encodeChars cs ↔ a ∈ cs := by
  simp only [encodeChars, List.mem_flatMap, mem_encodeChar_iff ha, exists_eq_right]

/-- What holds of every byte beyond ASCII holds of the bytes of a text just
if it holds of its characters. -/
theorem forall_mem_encodeChars_iff {P : Nat → Prop} (h : ∀ n, 0x80 ≤ n → P n) {cs : List Char} :
    (∀ b ∈ encodeChars cs, P b.toNat) ↔ ∀ c ∈ cs, P c.toNat := by
  have hchar (c : Char) : (∀ b ∈ String.utf8EncodeChar c, P b.toNat) ↔ P c.toNat := by
    by_cases hc : c.toNat < 0x80
    · rw [encodeChar_of_ascii hc, List.forall_mem_singleton, UInt8.toNat_ofNat',
        Nat.mod_eq_of_lt (by omega)]
    · have hhigh := Nat.le_of_not_lt hc
      exact ⟨fun _ => h _ hhigh, fun _ b hb => h _ (high_of_mem_encodeChar hhigh hb)⟩
  simp only [encodeChars, List.forall_mem_flatMap, hchar]

/-- A text without a carriage return is written without one. -/
theorem cr_notMem_encodeChars {cs : List Char} (h : '\r' ∉ cs) : (13 : UInt8) ∉ encodeChars cs :=
  fun hm => h ((mem_encodeChars_iff (a := '\r') (by decide)).1 hm)

theorem encodeChars_ne_nil {cs : List Char} (h : cs ≠ []) : encodeChars cs ≠ [] := by
  obtain ⟨c, rest, rfl⟩ := List.exists_cons_of_ne_nil h
  rw [encodeChars_cons]
  exact List.append_ne_nil_of_left_ne_nil (String.utf8EncodeChar_ne_nil) _

/-- A text has at least as many bytes as characters. -/
theorem length_le_encodeChars (cs : List Char) : cs.length ≤ (encodeChars cs).length := by
  induction cs with
  | nil => exact Nat.le_refl 0
  | cons c cs ih =>
      have hpos := c.utf8Size_pos
      rw [encodeChars_cons, List.length_append, String.length_utf8EncodeChar, List.length_cons]
      omega

theorem encodeChars_lineEnd : encodeChars ['\r', '\n'] = [13, 10] := by
  decide

theorem decode?_encodeChars (cs : List Char) :
    decode? (encodeChars cs) = some (String.ofList cs) := by
  rw [decode?_eq_some_iff, encode, String.toList_ofList]

end Utf8

-- ========================================================= whole lines

theorem linesAfter_append_of_notMem {line : List Char} (h : '\r' ∉ line) (front rest : List Char) :
    linesAfter front (line ++ rest) = linesAfter (line.reverse ++ front) rest := by
  induction line generalizing front with
  | nil => rfl
  | cons c line ih =>
      have hc : c ≠ '\r' := fun e => h (e ▸ List.mem_cons_self)
      have hline : '\r' ∉ line := fun hm => h (List.mem_cons_of_mem c hm)
      rw [List.cons_append, linesAfter, ih hline, List.reverse_cons, List.append_assoc]
      · rfl
      · intro _ e
        exact absurd e hc

/-- Lines are what their text is cut into. -/
theorem lines_joinLines {ls : List (List Char)} (hne : ls ≠ []) (h : ∀ line ∈ ls, '\r' ∉ line) :
    lines (joinLines ls) = ls := by
  unfold lines
  induction ls with
  | nil => exact absurd rfl hne
  | cons line ls ih =>
      have hline := h line List.mem_cons_self
      cases ls with
      | nil =>
          have hend := linesAfter_append_of_notMem hline [] []
          rw [List.append_nil] at hend
          rw [joinLines, hend, linesAfter, List.append_nil, List.reverse_reverse]
      | cons next ls =>
          rw [joinLines, linesAfter_append_of_notMem hline, linesAfter,
            ih (List.cons_ne_nil _ _) fun l hl => h l (List.mem_cons_of_mem _ hl), List.append_nil,
            List.reverse_reverse]

/-- Lines with a line end after each are their text with one after it. -/
theorem joinLines_append_lineEnd (line : List Char) (ls : List (List Char)) :
    joinLines (line :: ls) ++ ['\r', '\n'] = (line :: ls).flatMap (· ++ ['\r', '\n']) := by
  induction ls generalizing line with
  | nil => rw [joinLines, List.flatMap_singleton]
  | cons next ls ih =>
      rw [List.flatMap_cons, ← ih next, joinLines]
      simp only [List.append_assoc, List.cons_append, List.nil_append]

/-- The bytes of lines are cut into theirs. -/
theorem Utf8.encodeChars_joinLines (line : List Char) (ls : List (List Char)) :
    encodeChars (joinLines (line :: ls))
      = encodeChars line ++ (ls.map encodeChars).flatMap ([13, 10] ++ ·) := by
  induction ls generalizing line with
  | nil => rw [joinLines, List.map_nil, List.flatMap_nil, List.append_nil]
  | cons next ls ih =>
      have hend : encodeChars ('\r' :: '\n' :: joinLines (next :: ls))
          = [13, 10] ++ encodeChars (joinLines (next :: ls)) := rfl
      rw [joinLines, encodeChars_append, hend, ih, List.map_cons, List.flatMap_cons,
        List.append_assoc]

end WireHttp.Text
