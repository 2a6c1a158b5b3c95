/-
Trimming, and numerals with something around them.

What is left of a text once its ends are trimmed is the one part of it
that does not begin or end with what is taken off and has nothing else on
either side (`trimBy_eq_iff`). It is the reason why a value may be written
with any white space around it and is still read as itself.

A length is read in two ways. Strictly it is a digit string
(`Decimal.readDigits?_eq_some_iff`); leniently it may have a plus sign in
front of it and white space around it, and there is no other difference
(`Decimal.readWord?_trim_eq_some_iff`).
-/
import WireHttp.Text.Blank
import WireHttp.Text.Decimal

namespace WireHttp.Text

-- ============================================================== trimming

section Trim

variable {p : Char → Bool}

/-- Nothing is dropped from the front of a text that begins with another
character. -/
theorem dropWhile_of_head? {cs : List Char} (h : ∀ c ∈ cs.head?, p c = false) :
    cs.dropWhile p = cs := by
  cases cs with
  | nil => rfl
  | cons c cs => exact List.dropWhile_cons_of_neg (by simp [h c rfl])

theorem head?_dropWhile {cs : List Char} : ∀ c ∈ (cs.dropWhile p).head?, p c = false := by
  intro c hc
  have hnot := List.head?_dropWhile_not p cs
  rwa [Option.mem_def.1 hc] at hnot

/-- What is left when both ends are trimmed is what stands between them. -/
theorem trimBy_eq_iff {cs mid : List Char} :
    trimBy p cs = mid ↔
      (∀ c ∈ mid.head?, p c = false) ∧ (∀ c ∈ mid.getLast?, p c = false) ∧
        ∃ before after, (∀ c ∈ before, p c = true) ∧ (∀ c ∈ after, p c = true) ∧
          cs = before ++ (mid ++ after) := by
  constructor
  · rintro rfl
    have taken {cs : List Char} : ∀ c ∈ cs.takeWhile p, p c = true :=
      List.all_eq_true.1 List.all_takeWhile
    have hback : (cs.dropWhile p)
        = trimBy p cs ++ ((cs.dropWhile p).reverse.takeWhile p).reverse := by
      rw [trimBy, ← List.reverse_append, List.takeWhile_append_dropWhile, List.reverse_reverse]
    refine ⟨?_, ?_, cs.takeWhile p, ((cs.dropWhile p).reverse.takeWhile p).reverse,
      taken, ?_, ?_⟩
    · intro c hc
      refine head?_dropWhile (p := p) c (?_ : c ∈ (cs.dropWhile p).head?)
      rw [hback, List.head?_append, Option.mem_def.1 hc]
      rfl
    · intro c hc
      rw [trimBy, List.getLast?_reverse] at hc
      exact head?_dropWhile c hc
    · intro c hc
      exact taken c (List.mem_reverse.1 hc)
    · rw [← hback, List.takeWhile_append_dropWhile]
  · rintro ⟨hfront, hback, before, after, hbefore, hafter, rfl⟩
    unfold trimBy
    rw [List.dropWhile_append_of_pos hbefore]
    cases mid with
    | nil =>
        have hnil : after.dropWhile p = [] := by
          rw [← List.append_nil after, List.dropWhile_append_of_pos hafter, List.dropWhile_nil]
        rw [List.nil_append, hnil]
        rfl
    | cons c mid =>
        have hkept : (c :: mid ++ after).dropWhile p = c :: mid ++ after :=
          dropWhile_of_head? hfront
        rw [hkept, List.reverse_append,
          List.dropWhile_append_of_pos fun d hd => hafter d (List.mem_reverse.1 hd),
          dropWhile_of_head?, List.reverse_reverse]
        rw [List.head?_reverse]
        exact hback

/-- A text of which no character is taken off is trimmed of nothing. -/
theorem trimBy_eq_self {cs : List Char} (h : ∀ c ∈ cs, p c = false) : trimBy p cs = cs :=
  trimBy_eq_iff.2 ⟨fun c hc => h c (List.mem_of_mem_head? hc),
    fun c hc => h c (List.mem_of_mem_getLast? hc), [], [], nofun, nofun, (List.append_nil cs).symm⟩

/-- No character that ASCII prints is white space. -/
theorem isBlank_of_printed {c : Char} (hlow : 32 < c.toNat) (hhigh : c.toNat < 127) :
    isBlank c = false := by
  rw [Bool.eq_false_iff]
  simp only [isBlank, ne_eq, Bool.or_eq_true, Bool.and_eq_true, decide_eq_true_eq, beq_iff_eq]
  omega

end Trim

-- ============================================================== numerals

namespace Decimal

theorem isDigits_iff {cs : List Char} :
    isDigits cs = true ↔ cs ≠ [] ∧ ∀ c ∈ cs, c.isDigit = true := by
  simp [isDigits]

/-- No digit is white space. -/
theorem isBlank_of_isDigit {c : Char} (h : c.isDigit = true) : isBlank c = false := by
  simp only [Char.isDigit, Bool.and_eq_true, decide_eq_true_eq] at h
  have hlow : 48 ≤ c.toNat := h.1
  have hhigh : c.toNat ≤ 57 := h.2
  exact isBlank_of_printed (by omega) (by omega)

/-- A numeral is read strictly if it is a digit string and fits in a
word. -/
theorem readDigits?_eq_some_iff {cs : List Char} {n : Nat} :
    readDigits? cs = some n ↔ isDigits cs = true ∧ value cs = n ∧ n < wordSize := by
  rw [readDigits?_eq]
  split
  · next h =>
    rw [Bool.and_eq_true, decide_eq_true_eq] at h
    rw [Option.some.injEq]
    constructor
    · rintro rfl
      exact ⟨h.1, rfl, h.2⟩
    · exact fun hv => hv.2.1
  · next h =>
    rw [Bool.and_eq_true, decide_eq_true_eq] at h
    constructor
    · exact nofun
    · rintro ⟨hd, rfl, hlt⟩
      exact absurd ⟨hd, hlt⟩ h

/-- A digit string of `n` with, at most, a plus sign in front of it and
white space around both. -/
def SpellsLoosely (cs : List Char) (n : Nat) : Prop :=
  ∃ before sign digits after, cs = before ++ (sign ++ digits ++ after) ∧
    (∀ c ∈ before, isBlank c = true) ∧ (sign = [] ∨ sign = ['+']) ∧
    isDigits digits = true ∧ value digits = n ∧ ∀ c ∈ after, isBlank c = true

theorem readWord?_eq_some_iff {cs : List Char} {n : Nat} :
    readWord? cs = some n ↔
      ∃ sign digits, cs = sign ++ digits ∧ (sign = [] ∨ sign = ['+']) ∧
        readDigits? digits = some n := by
  have hplus (rest : List Char) : readDigits? ('+' :: rest) ≠ some n := by
    intro h
    have hd := (isDigits_iff.1 (readDigits?_eq_some_iff.1 h).1).2 '+' List.mem_cons_self
    exact absurd hd (by decide)
  unfold readWord?
  split
  · next rest =>
    constructor
    · exact fun h => ⟨['+'], rest, rfl, Or.inr rfl, h⟩
    · rintro ⟨sign, digits, heq, rfl | rfl, h⟩
      · exact absurd (heq ▸ h) (hplus rest)
      · rw [List.singleton_append, List.cons.injEq] at heq
        rwa [heq.2]
  · next hnone =>
    constructor
    · exact fun h => ⟨[], cs, rfl, Or.inl rfl, h⟩
    · rintro ⟨sign, digits, rfl, rfl | rfl, h⟩
      · exact h
      · exact absurd rfl (hnone digits)

/-- A numeral is read leniently if it is one but for a plus sign in front
of it and white space around it, and fits in a word. -/
theorem readWord?_trim_eq_some_iff {cs : List Char} {n : Nat} :
    readWord? (trim cs) = some n ↔ SpellsLoosely cs n ∧ n < wordSize := by
  rw [readWord?_eq_some_iff]
  constructor
  · rintro ⟨sign, digits, htrim, hsign, hread⟩
    obtain ⟨hdigits, hvalue, hword⟩ := readDigits?_eq_some_iff.1 hread
    obtain ⟨-, -, before, after, hbefore, hafter, heq⟩ := trimBy_eq_iff.1 htrim
    exact ⟨⟨before, sign, digits, after, heq, hbefore, hsign, hdigits, hvalue, hafter⟩, hword⟩
  · rintro ⟨⟨before, sign, digits, after, heq, hbefore, hsign, hdigits, hvalue, hafter⟩, hword⟩
    refine ⟨sign, digits, trimBy_eq_iff.2 ⟨?_, ?_, before, after, hbefore, hafter, heq⟩, hsign,
      readDigits?_eq_some_iff.2 ⟨hdigits, hvalue, hword⟩⟩
    · have hfirst : ∀ c ∈ digits, isBlank c = false :=
        fun c hc => isBlank_of_isDigit ((isDigits_iff.1 hdigits).2 c hc)
      intro c hc
      rcases hsign with rfl | rfl
      · exact hfirst c (List.mem_of_mem_head? hc)
      · obtain rfl : '+' = c := Option.some.inj hc
        decide
    · intro c hc
      obtain ⟨d, hd⟩ := Option.isSome_iff_exists.1
        (List.getLast?_isSome.2 (isDigits_iff.1 hdigits).1)
      rw [List.getLast?_append, hd] at hc
      obtain rfl : d = c := Option.some.inj hc
      exact isBlank_of_isDigit ((isDigits_iff.1 hdigits).2 d (List.mem_of_mem_getLast? hd))

/-- A digit string is read leniently as it is strictly. -/
theorem readWord?_trim_of_isDigits {cs : List Char} (h : isDigits cs = true) :
    readWord? (trim cs) = readDigits? cs := by
  have hdigit := (isDigits_iff.1 h).2
  have htrim : trim cs = cs := trimBy_eq_self fun c hc => isBlank_of_isDigit (hdigit c hc)
  rw [htrim]
  unfold readWord?
  split
  · exact absurd (hdigit '+' List.mem_cons_self) (by decide)
  · rfl

end Decimal

end WireHttp.Text
