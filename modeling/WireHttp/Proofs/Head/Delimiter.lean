/-
Where a head ends, as a fact about the bytes alone. A delimiter stands at
a position if the bytes from there on begin with it; a search gives the
least such position (`find?_eq_some_iff`) or says that there is none
(`find?_eq_none_iff`).

What every reader of a growing buffer needs follows from these two:

- a delimiter that was found stays where it is when more bytes arrive
  (`find?_append`);
- the first `k` bytes hold a delimiter just if all of the first one lies
  within them (`infix_take_iff`), so it is enough to know where that ends;
- a search that found nothing in the first `k` bytes may be taken up
  three bytes before their end, and nothing is missed (`find?_resume`):
  a delimiter that begins earlier would lie within those bytes.

Whoever writes a head needs a third: lines that are not empty and hold no
carriage return end where the blank line after them begins, whatever
follows (`find?_lines`).
-/
import WireHttp.Head.Delimiter

namespace WireHttp.Delimiter

/-- The bytes from a position on begin with the delimiter. -/
def StandsAt (bs : Bytes) (i : Nat) : Prop :=
  mark <+: bs.drop i

theorem length_mark : mark.length = 4 := rfl

/-- A delimiter lies within the bytes that it stands in. -/
theorem StandsAt.le_length {bs : Bytes} {i : Nat} (h : StandsAt bs i) :
    i + 4 ≤ bs.length := by
  have hle := List.IsPrefix.length_le h
  rw [List.length_drop, length_mark] at hle
  omega

/-- Whether a delimiter stands at a position depends on nothing that
arrives after it. -/
theorem standsAt_append_iff {bs ext : Bytes} {i : Nat} (h : i + 4 ≤ bs.length) :
    StandsAt (bs ++ ext) i ↔ StandsAt bs i := by
  unfold StandsAt
  rw [List.drop_append_of_le_length (by omega)]
  constructor
  · intro hp
    refine List.prefix_of_prefix_length_le hp (List.prefix_append _ _) ?_
    rw [List.length_drop, length_mark]
    omega
  · intro hp
    exact hp.trans (List.prefix_append _ _)

-- ========================================================== the search

/-- A search that starts at `pos` is a search that starts at 0, moved. -/
private theorem findFrom_eq_some_iff {pos stop : Nat} {bs : Bytes} :
    findFrom pos bs = some stop
      ↔ ∃ i, stop = pos + i ∧ StandsAt bs i ∧ ∀ j < i, ¬ StandsAt bs j := by
  induction bs generalizing pos with
  | nil =>
      simp only [findFrom, reduceCtorEq, false_iff]
      rintro ⟨i, -, hi, -⟩
      have := hi.le_length
      simp at this
  | cons b bs ih =>
      rw [findFrom]
      split
      · next hp =>
        have h0 : StandsAt (b :: bs) 0 := List.isPrefixOf_iff_prefix.1 hp
        constructor
        · rintro ⟨⟩
          exact ⟨0, rfl, h0, fun j hj => absurd hj (Nat.not_lt_zero j)⟩
        · rintro ⟨i, rfl, -, hmin⟩
          cases i with
          | zero => rfl
          | succ i => exact absurd h0 (hmin 0 (Nat.succ_pos i))
      · next hp =>
        have h0 : ¬ StandsAt (b :: bs) 0 := fun h => hp (List.isPrefixOf_iff_prefix.2 h)
        rw [ih]
        constructor
        · rintro ⟨i, rfl, hi, hmin⟩
          refine ⟨i + 1, by omega, hi, ?_⟩
          intro j hj
          cases j with
          | zero => exact h0
          | succ j => exact hmin j (by omega)
        · rintro ⟨i, rfl, hi, hmin⟩
          cases i with
          | zero => exact absurd hi h0
          | succ i => exact ⟨i, by omega, hi, fun j hj => hmin (j + 1) (by omega)⟩

private theorem standsAt_drop_iff {bs : Bytes} {start i : Nat} :
    StandsAt (bs.drop start) i ↔ StandsAt bs (start + i) := by
  rw [StandsAt, StandsAt, List.drop_drop]

/-- A search finds the first delimiter at or after its start. -/
theorem find?_eq_some_iff {bs : Bytes} {start stop : Nat} :
    find? bs start = some stop
      ↔ start ≤ stop ∧ StandsAt bs stop ∧ ∀ i, start ≤ i → i < stop → ¬ StandsAt bs i := by
  rw [find?, findFrom_eq_some_iff]
  constructor
  · rintro ⟨i, rfl, hi, hmin⟩
    refine ⟨by omega, standsAt_drop_iff.1 hi, ?_⟩
    intro j hj hlt hat
    refine hmin (j - start) (by omega) (standsAt_drop_iff.2 ?_)
    rwa [Nat.add_sub_cancel' hj]
  · rintro ⟨hle, hat, hmin⟩
    refine ⟨stop - start, by omega, standsAt_drop_iff.2 ?_, ?_⟩
    · rwa [Nat.add_sub_cancel' hle]
    · intro j hj hat'
      exact hmin (start + j) (by omega) (by omega) (standsAt_drop_iff.1 hat')

/-- A search finds nothing if no delimiter stands at or after its
start. -/
theorem find?_eq_none_iff {bs : Bytes} {start : Nat} :
    find? bs start = none ↔ ∀ i, start ≤ i → ¬ StandsAt bs i := by
  constructor
  · intro hnone i
    -- the least position at which one stood would have been found
    induction i using Nat.strongRecOn with
    | ind i ih =>
        intro hi hat
        have hmin : ∀ j, start ≤ j → j < i → ¬ StandsAt bs j := fun j hj hlt => ih j hlt hj
        rw [find?_eq_some_iff.2 ⟨hi, hat, hmin⟩] at hnone
        cases hnone
  · intro h
    cases hf : find? bs start with
    | none => rfl
    | some stop =>
        obtain ⟨hle, hat, -⟩ := find?_eq_some_iff.1 hf
        exact absurd hat (h stop hle)

/-- A search of all bytes finds nothing if the delimiter is nowhere among
them. -/
theorem find?_eq_none_iff_not_infix {bs : Bytes} : find? bs 0 = none ↔ ¬ mark <:+: bs := by
  rw [find?_eq_none_iff]
  constructor
  · rintro h ⟨front, back, rfl⟩
    refine h front.length (Nat.zero_le _) ?_
    rw [StandsAt, List.append_assoc, List.drop_left]
    exact List.prefix_append _ _
  · intro h i _ hat
    exact h (hat.isInfix.trans (List.drop_suffix i bs).isInfix)

/-- The bytes up to the end of the first delimiter begin the buffer, and no
delimiter ends before they do. -/
theorem exists_first_of_find? {bs : Bytes} {stop : Nat} (h : find? bs 0 = some stop) :
    bs.take stop ++ mark <+: bs ∧ ¬ mark <:+: (bs.take stop ++ mark).dropLast := by
  obtain ⟨-, hat, hmin⟩ := find?_eq_some_iff.1 h
  have hlen := hat.le_length
  have hfront : bs.take stop ++ mark <+: bs := by
    obtain ⟨rest, hrest⟩ := hat
    refine ⟨rest, ?_⟩
    rw [List.append_assoc, hrest, List.take_append_drop]
  refine ⟨hfront, ?_⟩
  rw [← find?_eq_none_iff_not_infix, find?_eq_none_iff]
  intro i _ hi
  have hi' := hi.le_length
  rw [List.length_dropLast, List.length_append, List.length_take, length_mark] at hi'
  refine hmin i (Nat.zero_le i) (by omega) ?_
  obtain ⟨rest, hrest⟩ := (List.dropLast_prefix _).trans hfront
  rw [← hrest]
  exact (standsAt_append_iff hi.le_length).2 hi

-- ================================================= a buffer that grows

/-- A delimiter that was found stays the first one. -/
theorem find?_append {bs : Bytes} {stop : Nat} (ext : Bytes) (h : find? bs 0 = some stop) :
    find? (bs ++ ext) 0 = some stop := by
  obtain ⟨-, hat, hmin⟩ := find?_eq_some_iff.1 h
  have hlen := hat.le_length
  refine find?_eq_some_iff.2 ⟨Nat.zero_le _, (standsAt_append_iff hlen).2 hat, ?_⟩
  intro i h0 hi
  rw [standsAt_append_iff (by omega)]
  exact hmin i h0 hi

/-- Bytes without a delimiter have none in any of their first bytes. -/
theorem find?_take {bs : Bytes} (k : Nat) (h : find? bs 0 = none) :
    find? (bs.take k) 0 = none := by
  rw [find?_eq_none_iff] at h ⊢
  intro i h0 hat
  have hlen := hat.le_length
  refine h i h0 ?_
  rw [← List.take_append_drop k bs]
  exact (standsAt_append_iff hlen).2 hat

/-- The first bytes hold a delimiter just if they hold all of the first
one. -/
theorem infix_take_iff {bs : Bytes} {stop : Nat} (h : find? bs 0 = some stop) (k : Nat) :
    mark <:+: bs.take k ↔ stop + mark.length ≤ k := by
  constructor
  · intro hin
    cases hf : find? (bs.take k) 0 with
    | none =>
        have hnone := find?_eq_none_iff_not_infix.1 hf
        exact absurd hin hnone
    | some i =>
        have hgrown := find?_append (bs.drop k) hf
        rw [List.take_append_drop, h] at hgrown
        obtain rfl := Option.some.inj hgrown
        exact Nat.le_trans (le_of_find? hf) (List.length_take_le k bs)
  · intro hle
    have hfirst := (exists_first_of_find? h).1
    have hsize : (bs.take stop ++ mark).length ≤ k := by
      rw [List.length_append]
      exact Nat.le_trans (Nat.add_le_add_right (List.length_take_le stop bs) _) hle
    have hin : bs.take stop ++ mark <+: bs.take k :=
      List.prefix_take_iff.2 ⟨hfirst, hsize⟩
    exact (List.suffix_append _ mark).isInfix.trans hin.isInfix

/-- A search over bytes of which the first `k` hold no delimiter may skip
all of them but the last three. -/
theorem find?_resume {bs : Bytes} {k : Nat} (h : find? (bs.take k) 0 = none) :
    find? bs (k - 3) = find? bs 0 := by
  have early : ∀ i, i < k - 3 → ¬ StandsAt bs i := by
    intro i hi hat
    have hlen := hat.le_length
    refine find?_eq_none_iff.1 h i (Nat.zero_le i) ?_
    have hlen' : i + 4 ≤ (bs.take k).length := by
      rw [List.length_take]
      omega
    rw [← List.take_append_drop k bs] at hat
    exact (standsAt_append_iff hlen').1 hat
  cases hf : find? bs 0 with
  | none =>
      rw [find?_eq_none_iff] at hf ⊢
      exact fun i _ => hf i (Nat.zero_le i)
  | some stop =>
      obtain ⟨-, hat, hmin⟩ := find?_eq_some_iff.1 hf
      have hle : k - 3 ≤ stop := Nat.le_of_not_lt fun hlt => early stop hlt hat
      exact find?_eq_some_iff.2 ⟨hle, hat, fun i _ hi => hmin i (Nat.zero_le i) hi⟩

-- ================================================= lines that are written

/-- Bytes without a carriage return are passed over. -/
private theorem findFrom_append_of_notMem {line : Bytes} (h : 13 ∉ line) (pos : Nat)
    (rest : Bytes) : findFrom pos (line ++ rest) = findFrom (pos + line.length) rest := by
  induction line generalizing pos with
  | nil => rfl
  | cons b line ih =>
      have hb : ¬ mark.isPrefixOf (b :: (line ++ rest)) = true := by
        rw [List.isPrefixOf_iff_prefix, mark, List.cons_prefix_cons]
        rintro ⟨rfl, -⟩
        exact h List.mem_cons_self
      rw [List.cons_append, findFrom, if_neg hb, ih fun hm => h (List.mem_cons_of_mem b hm),
        List.length_cons, Nat.add_assoc, Nat.add_comm 1]

/-- So is a line end that no other line end follows. -/
private theorem findFrom_lineEnd {b : UInt8} (h : b ≠ 13) (pos : Nat) (rest : Bytes) :
    findFrom pos (13 :: 10 :: b :: rest) = findFrom (pos + 2) (b :: rest) := by
  have hcr : ¬ mark.isPrefixOf (13 :: 10 :: b :: rest) = true := by
    rw [List.isPrefixOf_iff_prefix, mark]
    simp only [List.cons_prefix_cons, true_and]
    exact fun hp => h hp.1.symm
  have hlf : ¬ mark.isPrefixOf (10 :: b :: rest) = true := by
    rw [List.isPrefixOf_iff_prefix, mark, List.cons_prefix_cons]
    exact fun hp => absurd hp.1 (by decide)
  rw [findFrom, if_neg hcr, findFrom, if_neg hlf]

private theorem findFrom_lines {line : Bytes} {ls : List Bytes}
    (h : ∀ l ∈ line :: ls, l ≠ [] ∧ 13 ∉ l) (pos : Nat) (rest : Bytes) :
    findFrom pos (line ++ ls.flatMap ([13, 10] ++ ·) ++ mark ++ rest)
      = some (pos + (line ++ ls.flatMap ([13, 10] ++ ·)).length) := by
  induction ls generalizing line pos with
  | nil =>
      obtain ⟨-, hline⟩ := h line List.mem_cons_self
      rw [List.flatMap_nil, List.append_nil, List.append_assoc, findFrom_append_of_notMem hline]
      rfl
  | cons next ls ih =>
      obtain ⟨-, hline⟩ := h line List.mem_cons_self
      have hrest := fun l hl => h l (List.mem_cons_of_mem line hl)
      obtain ⟨b, more, hnext⟩ := List.exists_cons_of_ne_nil (hrest next List.mem_cons_self).1
      have hb : b ≠ 13 := by
        rintro rfl
        exact (hrest next List.mem_cons_self).2 (hnext ▸ List.mem_cons_self)
      have hstep := ih hrest (pos + line.length + 2)
      rw [hnext] at hstep ⊢
      simp only [List.flatMap_cons, List.append_assoc, List.cons_append, List.nil_append]
        at hstep ⊢
      rw [findFrom_append_of_notMem hline, findFrom_lineEnd hb, hstep]
      simp only [List.length_append, List.length_cons]
      congr 1
      omega

/-- Lines that are written one after the other end at the first
delimiter. -/
theorem find?_lines {line : Bytes} {ls : List Bytes} (h : ∀ l ∈ line :: ls, l ≠ [] ∧ 13 ∉ l)
    (rest : Bytes) :
    find? (line ++ ls.flatMap ([13, 10] ++ ·) ++ mark ++ rest) 0
      = some (line ++ ls.flatMap ([13, 10] ++ ·)).length := by
  rw [find?, List.drop_zero, findFrom_lines h, Nat.zero_add]

end WireHttp.Delimiter
