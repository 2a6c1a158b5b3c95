/-
Decimal numerals. A *digit string* is one or more ASCII digits, leading
zeros allowed, of any length; its value is the number it denotes, with
no bound. A *word* is a numeral whose value fits in 64 bits, optionally
led by a plus sign: the form lengths take where they are read leniently.
-/
import WireHttp.Text.Radix

namespace WireHttp.Text.Decimal

/-- One or more ASCII digits and nothing else. -/
def isDigits (cs : List Char) : Bool :=
  !cs.isEmpty && cs.all Char.isDigit

/-- The number a digit string denotes. -/
def value (cs : List Char) : Nat :=
  Nat.ofDigitChars 10 cs 0

/-- The shortest digit string denoting `n`. -/
def digits (n : Nat) : List Char :=
  Nat.toDigits 10 n

/-- The shortest decimal numeral of `n`, as a text. -/
def text (n : Nat) : String :=
  String.ofList (digits n)

/-- The least number that does not fit in a length word. -/
def wordSize : Nat := UInt64.size

/-- The value of a digit string that fits in a word. -/
def readDigits? (cs : List Char) : Option Nat :=
  Radix.readBelow? 10 wordSize cs

/-- The value of a digit string, with or without a leading plus sign,
that fits in a word. -/
def readWord? : List Char → Option Nat
  | '+' :: cs => readDigits? cs
  | cs => readDigits? cs

@[simp] theorem value_digits (n : Nat) : value (digits n) = n :=
  Nat.ofDigitChars_ten_toDigits

theorem isDigits_digits (n : Nat) : isDigits (digits n) = true := by
  simp only [isDigits, digits, Bool.and_eq_true, Bool.not_eq_true', List.isEmpty_eq_false_iff,
    List.all_eq_true]
  exact ⟨Nat.toDigits_ne_nil, fun _ => Nat.isDigit_of_mem_toDigits (by decide) (by decide)⟩

theorem digit?_of_isDigit {c : Char} (h : c.isDigit = true) :
    Radix.digit? 10 c = some (c.toNat - '0'.toNat) := by
  have hc : c.toNat ≤ 57 := by
    simp only [Char.isDigit, Bool.and_eq_true, decide_eq_true_eq] at h
    exact h.2
  have hd : c.toNat - '0'.toNat < 10 := by
    have : '0'.toNat = 48 := rfl
    omega
  unfold Radix.digit?
  rw [if_pos h]
  exact Option.filter_some_pos (by simpa using hd)

theorem digit?_of_not_isDigit {c : Char} (h : c.isDigit = false) : Radix.digit? 10 c = none := by
  unfold Radix.digit?
  rw [if_neg (by simp [h])]
  split
  · simp
  · split <;> simp

theorem le_ofDigitChars (n : Nat) (cs : List Char) : n ≤ Nat.ofDigitChars 10 cs n := by
  induction cs generalizing n with
  | nil => exact Nat.le_refl _
  | cons c cs ih =>
    rw [Nat.ofDigitChars_cons]
    exact Nat.le_trans (by omega) (ih _)

/-- Digits are read on as long as the value stays below the bound, which
it does unless the whole value reaches it. -/
theorem foldlM_next? {bound n : Nat} (hn : n < bound) (cs : List Char) :
    cs.foldlM (Radix.next? 10 bound) n =
      if cs.all Char.isDigit && Nat.ofDigitChars 10 cs n < bound then
        some (Nat.ofDigitChars 10 cs n)
      else none := by
  induction cs generalizing n with
  | nil => simp [Nat.ofDigitChars, hn]
  | cons c cs ih =>
    rw [List.foldlM_cons, Nat.ofDigitChars_cons]
    cases hc : c.isDigit with
    | false => simp [Radix.next?, digit?_of_not_isDigit hc, hc]
    | true =>
      simp only [Radix.next?, digit?_of_isDigit hc, Option.bind_some]
      split
      · next hlt => simpa [hc] using ih hlt
      · next hge =>
        have := le_ofDigitChars (10 * n + (c.toNat - '0'.toNat)) cs
        rw [if_neg]
        · rfl
        · simp only [Bool.and_eq_true, decide_eq_true_eq]
          omega

/-- What is read is the value of a digit string that fits in a word. -/
theorem readDigits?_eq (cs : List Char) :
    readDigits? cs = if isDigits cs && value cs < wordSize then some (value cs) else none := by
  unfold readDigits? Radix.readBelow?
  cases cs with
  | nil => simp [isDigits]
  | cons c cs =>
    rw [if_neg (by simp), foldlM_next? (by decide)]
    rfl

/-- Numbers that fit in a word are read back from their digits. -/
theorem readDigits?_digits {n : Nat} (h : n < wordSize) : readDigits? (digits n) = some n := by
  simp [readDigits?_eq, isDigits_digits, h]

end WireHttp.Text.Decimal
