/-
The search for the end of a head, over a run. A machine in which a head is
arriving remembers how many bytes it has searched and takes the search up
three bytes before that place. Bytes arrive in between, in pieces of any
size, and a delimiter may lie in as many pieces as it has bytes.

None is missed. The bytes that were searched hold no delimiter, which is
part of what every call keeps (`Valid.scanned`), and a delimiter that ends
after them begins among the last three or later (`Delimiter.find?_resume`).
So the search gives what it would give from the start (`Searches.find?_eq`).
Two things are then never seen: a head that is looked at although the
search has not come to its end (`Searches.read_ne_incomplete`), and an
event that reports it.
-/
import WireHttp.Proofs.Machine.Call

namespace WireHttp

/-- The place is the first at which a delimiter stands, or there is none
and no delimiter stands anywhere. -/
def Delimiter.IsFirst (bs : Bytes) : Option Nat → Prop
  | some place => StandsAt bs place ∧ ∀ i < place, ¬ StandsAt bs i
  | none => ∀ i, ¬ StandsAt bs i

/-- A search of all bytes gives the first place. -/
theorem Delimiter.isFirst_find? (bs : Bytes) : IsFirst bs (find? bs 0) := by
  cases hf : find? bs 0 with
  | none => exact fun i => find?_eq_none_iff.1 hf i (Nat.zero_le i)
  | some place =>
      obtain ⟨-, hat, hmin⟩ := find?_eq_some_iff.1 hf
      exact ⟨hat, fun i hi => hmin i (Nat.zero_le i) hi⟩

namespace Machine

variable {m n : Machine} {k : Nat}

/-- A poll searches for the end of a head in the bytes that `n` has, of
which the first `k` have been searched. -/
inductive Searches (m : Machine) : Machine → Nat → Prop
  | begun : m.Between → ¬ m.skipped.IsBlank → Searches m m.skipped 0
  | resumed (k : Nat) : m.phase = .readingHead k → Searches m m k

theorem Searches.poll_eq (h : Searches m n k) : m.poll = n.pollHead k := by
  cases h with
  | begun hb hne =>
      rw [poll_of_between hb]
      exact if_neg hne
  | resumed k hp =>
      unfold poll
      rw [hp]

/-- The search may be taken up where it was left. -/
theorem Searches.find?_eq (h : Searches m n k) (hv : m.Valid) :
    Delimiter.find? n.buffer (k - 3) = Delimiter.find? n.buffer 0 := by
  cases h with
  | begun => rfl
  | resumed k hp => exact Delimiter.find?_resume (hv.scanned k hp).2

/-- A head is looked at only when its end is there, or too far away. -/
theorem Searches.read_ne_incomplete (h : Searches m n k) (hv : m.Valid)
    (hlook : ¬ (Delimiter.find? n.buffer (k - 3) = none ∧ n.buffer.length ≤ n.limits.maxHead)) :
    Head.read n.limits n.buffer ≠ .error .incomplete := by
  rw [h.find?_eq hv] at hlook
  exact fun hread => hlook (Head.read_eq_incomplete_iff.1 hread)

/-- No event reports a head of which the end has not come. -/
theorem incomplete_notMem_events (limits : Limits) (cs : List Call) :
    Event.rejected .incomplete ∉ (start limits).events cs := by
  refine (calls_induction (m := start limits)
    (P := fun _ es n => n.Valid ∧ Event.rejected .incomplete ∉ es)
    ⟨.start limits, nofun⟩ (fun cs es n c ⟨hv, h⟩ => ⟨hv.call c, ?_⟩) cs).2
  have hm := moves hv c
  generalize (n.call c).1.event? = e at hm
  generalize (n.call c).2 = n' at hm
  rw [List.mem_append, not_or]
  refine ⟨h, ?_⟩
  cases hm with
  | poll hp =>
      cases hp with
      | rejected _ _ hne =>
          intro hmem
          cases List.mem_singleton.1 hmem
          exact hne rfl
      | _ => simp
  | _ => exact nofun

/-- However a machine has been called, while a head is arriving the search
that is taken up three bytes before the place where the last one ended
finds what a search of the whole buffer does: the first place at which a
delimiter stands, if there is one. So whenever a poll goes on to look at
the head, its verdict is not that the head is incomplete; and no such
event ever comes. -/
theorem search_resumes (limits : Limits) (cs : List Call) :
    let m := ((start limits).calls cs).2
    (∀ k, m.phase = .readingHead k → ∃ place, Delimiter.IsFirst m.buffer place ∧
      Delimiter.find? m.buffer 0 = place ∧ Delimiter.find? m.buffer (k - 3) = place) ∧
    (∀ n k, Searches m n k → m.poll = n.pollHead k ∧
      (¬ (Delimiter.find? n.buffer (k - 3) = none ∧ n.buffer.length ≤ n.limits.maxHead) →
        Head.read n.limits n.buffer ≠ .error .incomplete)) ∧
    Event.rejected .incomplete ∉ (start limits).events cs := by
  have hv := (Valid.start limits).calls cs
  dsimp only
  refine ⟨fun k hp => ?_, fun n k h => ⟨h.poll_eq, h.read_ne_incomplete hv⟩,
    incomplete_notMem_events limits cs⟩
  exact ⟨_, Delimiter.isFirst_find? _, rfl, (Searches.resumed k hp).find?_eq hv⟩

/-- A delimiter arrives byte by byte, and a poll comes after each but the
last: the search is taken up at its first byte. -/
theorem search_resumes_bytewise :
    let m := ((start {}).calls
      [.receive (Text.Utf8.encode "GET / HTTP/1.1"), .poll, .receive [13], .poll, .receive [10],
        .poll, .receive [13], .poll, .receive [10]]).2
    m.phase = .readingHead 17 ∧ Delimiter.find? m.buffer (17 - 3) = some 14 ∧
      Delimiter.IsFirst m.buffer (some 14) ∧
      Head.read m.limits m.buffer ≠ .error .incomplete := by
  obtain ⟨cs, hcs⟩ : ∃ cs : List Call, cs =
      [.receive (Text.Utf8.encode "GET / HTTP/1.1"), .poll, .receive [13], .poll, .receive [10],
        .poll, .receive [13], .poll, .receive [10]] := ⟨_, rfl⟩
  have hrun : ((start {}).calls cs).2.phase = .readingHead 17 ∧
      Delimiter.find? ((start {}).calls cs).2.buffer 14 = some 14 := by
    rw [hcs]
    decide +kernel
  obtain ⟨hp, hf⟩ := hrun
  obtain ⟨hplace, hlook, -⟩ := search_resumes {} cs
  obtain ⟨place, hfirst, -, hresumed⟩ := hplace 17 hp
  obtain rfl : some 14 = place := hf.symm.trans hresumed
  rw [← hcs]
  refine ⟨hp, hf, hfirst, (hlook _ 17 (.resumed 17 hp)).2 fun h => ?_⟩
  cases hf.symm.trans h.1

end Machine

end WireHttp
