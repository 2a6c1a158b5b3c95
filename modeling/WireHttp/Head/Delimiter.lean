/-
The end of a request head: the first place where two line ends meet. A
search may start at any position, so that one over bytes that keep
arriving can be taken up near the place where it stopped.
-/
import WireHttp.Bytes

namespace WireHttp.Delimiter

/-- Two line ends in a row. -/
def mark : Bytes := [13, 10, 13, 10]

/-- Position of the first delimiter in bytes of which the first stands
at position `pos`. -/
def findFrom (pos : Nat) : Bytes → Option Nat
  | [] => none
  | b :: bs => if mark.isPrefixOf (b :: bs) then some pos else findFrom (pos + 1) bs

/-- Position of the first delimiter at or after position `start`. -/
def find? (bs : Bytes) (start : Nat) : Option Nat :=
  findFrom start (bs.drop start)

/-- A delimiter that was found lies within the bytes that were searched. -/
theorem le_of_findFrom {pos stop : Nat} {bs : Bytes} (h : findFrom pos bs = some stop) :
    pos ≤ stop ∧ stop + mark.length ≤ pos + bs.length := by
  induction bs generalizing pos with
  | nil => cases h
  | cons b bs ih =>
    simp only [findFrom] at h
    split at h
    · next hp =>
      obtain rfl := Option.some.inj h
      have := (List.isPrefixOf_iff_prefix.1 hp).length_le
      exact ⟨Nat.le_refl _, Nat.add_le_add_left this _⟩
    · have := ih h
      simp only [List.length_cons]
      omega

/-- A delimiter that was found lies within the buffer. -/
theorem le_of_find? {bs : Bytes} {stop : Nat} (h : find? bs 0 = some stop) :
    stop + mark.length ≤ bs.length := by
  simpa using (le_of_findFrom h).2

end WireHttp.Delimiter
