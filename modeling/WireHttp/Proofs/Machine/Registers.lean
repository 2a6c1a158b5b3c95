/-
The registers keep in step. `Stands` says which state, with which request
kept beside it, a phase amounts to, and `Represents` that registers hold
what a machine holds. Whatever is called, both give back the same and the
one goes on to represent the other (`Represents.call`); so what is said of
machines is said of registers.

That the request which is kept is there when it is called for, and gone
when it is not, has to be said (`Consistent.kept`, `Consistent.notKept`):
registers could have it otherwise. It is what makes consistent registers
represent a machine at all (`Consistent.represents`), and then they are as
consistent as that machine (`Represents.consistent_iff`), which every call
keeps so.

Nothing is said of what is kept once the reading is over. A response that
ends it within a body leaves the request behind, and nothing looks at it
any more.
-/
import WireHttp.Machine.Registers
import WireHttp.Proofs.Machine.Consistent

namespace WireHttp.Registers

-- ====================================================== representation

/-- The state of the reading, how far a head has been searched and what is
kept of the request that is arriving amount to a phase. -/
inductive Stands : ReadState → Nat → Option Exchange → Phase → Prop
  | idle (k : Nat) : Stands .idle k none .idle
  | readingHeaders (k : Nat) : Stands .readingHeaders k none (.readingHead k)
  | readingBody (n k : Nat) (x : Exchange) :
      Stands (.readingBody n) k (some x) (.readingBody x n)
  | complete (k : Nat) (x : Exchange) :
      Stands (.messageComplete false) k (some x) (.complete x)
  | ended (k : Nat) : Stands (.messageComplete true) k none .ended
  /-- Once the reading is over it does not matter what is kept. -/
  | closing (k : Nat) (kept : Option Exchange) : Stands .closing k kept .closing

/-- The registers hold what the machine holds. -/
structure Represents (r : Registers) (m : Machine) : Prop where
  limits : r.limits = m.limits
  buffer : r.buffer = m.buffer
  mustClose : r.mustClose = m.mustClose
  eof : r.eof = m.eof
  owed : r.owed = m.owed
  outbound : r.outbound = m.outbound
  stands : Stands r.state r.scanned r.current m.phase

/-- An operation comes to the same on both sides. -/
structure Agree {α : Type} (p : α × Registers) (q : α × Machine) : Prop where
  result : p.1 = q.1
  after : Represents p.2 q.2

variable {r r' : Registers} {m m' : Machine}

theorem represents_start (limits : Limits) : Represents (start limits) (.start limits) where
  limits := rfl
  buffer := rfl
  mustClose := rfl
  eof := rfl
  owed := rfl
  outbound := rfl
  stands := .idle 0

theorem Stands.closing_iff {s : ReadState} {k : Nat} {kept : Option Exchange} {p : Phase}
    (h : Stands s k kept p) : s = .closing ↔ p = .closing := by
  cases h <;> simp

theorem Stands.ended_iff {s : ReadState} {k : Nat} {kept : Option Exchange} {p : Phase}
    (h : Stands s k kept p) : s = .messageComplete true ↔ p = .ended := by
  cases h <;> simp

theorem Stands.readingHead_iff {s : ReadState} {k j : Nat} {kept : Option Exchange} {p : Phase}
    (h : Stands s k kept p) : p = .readingHead j ↔ s = .readingHeaders ∧ k = j := by
  cases h <;> simp

theorem Stands.readingBody_iff {s : ReadState} {k n : Nat} {kept : Option Exchange} {p : Phase}
    (h : Stands s k kept p) : s = .readingBody n ↔ ∃ x, p = .readingBody x n := by
  cases h <;> simp

/-- What is kept is the request that the phase has. -/
theorem Stands.kept_eq {s : ReadState} {k : Nat} {kept : Option Exchange} {p : Phase}
    (h : Stands s k kept p) (hp : p ≠ .closing) : kept = p.exchange? := by
  cases h with
  | closing => exact absurd rfl hp
  | _ => rfl

-- =========================================================== receiving

theorem Represents.enterClosing (h : Represents r m) :
    Represents r.enterClosing m.enterClosing :=
  { h with buffer := rfl, mustClose := rfl, stands := .closing _ _ }

theorem Represents.receive (h : Represents r m) (data : Bytes) :
    Represents (r.receive data) (m.receive data) := by
  unfold Registers.receive Machine.receive
  simp only [h.stands.closing_iff]
  split
  · exact h
  · exact { h with buffer := congrArg (· ++ data) h.buffer }

theorem Represents.receiveEof (h : Represents r m) : Represents r.receiveEof m.receiveEof :=
  { h with eof := rfl }

/-- A round that finds nothing more to read ends the poll as a machine
does. -/
theorem Represents.starve (h : Represents r m) (hround : r'.round = r.starve) :
    Agree r'.poll m.starve := by
  unfold Registers.starve at hround
  unfold Machine.starve
  split at hround
  · next he =>
    rw [poll_of_over hround, if_pos (h.eof ▸ he)]
    exact ⟨rfl, { h with buffer := rfl, mustClose := rfl, stands := .closing _ _ }⟩
  · next he =>
    rw [poll_of_over hround, if_neg (h.eof ▸ he)]
    exact ⟨rfl, h⟩

theorem Represents.acceptHead (h : Represents r { m with phase := .readingHead r.scanned })
    (head : Head) (consumed : Nat) :
    Represents (r.acceptHead head consumed) (m.acceptHead head consumed) := by
  refine { h with buffer := ?_, mustClose := ?_, stands := ?_ }
  · exact congrArg (·.drop consumed) h.buffer
  · exact congrArg (· || !head.keepAlive) h.mustClose
  · unfold Registers.acceptHead Machine.acceptHead
    dsimp only
    split
    · exact .complete _ _
    · exact .readingBody _ _ _

theorem Represents.pollHead (h : Represents r { m with phase := .readingHead r.scanned })
    (hs : r.state = .readingHeaders) : Agree r.poll (m.pollHead r.scanned) := by
  have hbuffer : r.buffer = m.buffer := h.buffer
  have hlimits : r.limits = m.limits := h.limits
  have hround : r.round = r.roundHead := by
    unfold Registers.round
    rw [hs]
  have hkept : r.current = none := h.stands.kept_eq nofun
  unfold roundHead at hround
  unfold Machine.pollHead
  split at hround
  · next hc =>
    rw [if_pos (hlimits ▸ hbuffer ▸ hc)]
    refine Represents.starve ?_ hround
    refine { h with stands := ?_ }
    dsimp only
    rw [hs, hkept, ← hbuffer]
    exact .readingHeaders _
  · next hc =>
    rw [if_neg (hlimits ▸ hbuffer ▸ hc)]
    split at hround
    · next head consumed hr =>
      rw [hlimits, hbuffer] at hr
      rw [poll_of_over hround, hr]
      exact ⟨rfl, h.acceptHead head consumed⟩
    · next hr =>
      rw [hlimits, hbuffer] at hr
      rw [poll_of_over hround, hr]
      exact ⟨rfl, h⟩
    · next e hne hr =>
      rw [hlimits, hbuffer] at hr
      rw [poll_of_over hround, hr]
      cases e with
      | incomplete => exact absurd rfl hne
      | _ =>
        refine ⟨rfl, { h with
          buffer := rfl
          mustClose := rfl
          owed := ?_
          stands := .closing _ _ }⟩
        exact congrArg (· ++ [Exchange.rejected]) h.owed

theorem Represents.pollIdle (h : Represents r { m with phase := .idle }) (hs : r.state = .idle) :
    Agree r.poll m.pollIdle := by
  have hbuffer : r.buffer = m.buffer := h.buffer
  have hround : r.round = r.roundIdle := by
    unfold Registers.round
    rw [hs]
  have hkept : r.current = none := h.stands.kept_eq nofun
  unfold roundIdle at hround
  unfold Machine.pollIdle
  dsimp only at hround ⊢
  rw [hbuffer] at hround
  split at hround
  · next hb =>
    rw [if_pos hb]
    refine Represents.starve ?_ hround
    exact { h with buffer := rfl }
  · next hb =>
    rw [if_neg hb, poll_of_again hround]
    refine Represents.pollHead ?_ rfl
    refine { h with buffer := rfl, stands := ?_ }
    dsimp only
    rw [hkept]
    exact .readingHeaders 0

theorem Represents.pollBody {x : Exchange} {n : Nat} (h : Represents r m)
    (hs : r.state = .readingBody n) (hp : m.phase = .readingBody x n) :
    Agree r.poll (m.pollBody x n) := by
  have hkept : r.current = some x := by
    rw [h.stands.kept_eq (by rw [hp]; nofun), hp]
    rfl
  have hround : r.round = r.roundBody n := by
    unfold Registers.round
    rw [hs]
  unfold roundBody at hround
  unfold Machine.pollBody
  dsimp only at hround ⊢
  rw [h.buffer] at hround
  split at hround
  · next hb =>
    rw [if_pos hb]
    exact h.starve hround
  · next hb =>
    rw [if_neg hb, poll_of_over hround]
    refine ⟨rfl, { h with buffer := rfl, stands := ?_ }⟩
    dsimp only
    rw [hkept]
    split
    · exact .complete _ _
    · exact .readingBody _ _ _

/-- A poll comes to the same on both sides, however many rounds it goes. -/
theorem Represents.poll (h : Represents r m) : Agree r.poll m.poll := by
  have hstands := h.stands
  generalize hs : r.state = s, hk : r.scanned = k, hc : r.current = kept, hp : m.phase = p
    at hstands
  unfold Machine.poll
  rw [hp]
  cases hstands with
  | idle =>
      refine Represents.pollIdle ?_ hs
      rw [← hp]
      exact h
  | readingHeaders =>
      rw [← hk]
      refine Represents.pollHead ?_ hs
      rw [hk, ← hp]
      exact h
  | readingBody n k x => exact h.pollBody hs hp
  | complete k x =>
      have howe : { r with state := .messageComplete true }.owe
          = { r with state := .messageComplete true, current := none, owed := r.owed ++ [x] } := by
        unfold owe
        dsimp only
        rw [hc]
      have hround : r.round
          = (.over (some .messageEnd), { r with state := .messageComplete true }.owe) := by
        unfold Registers.round
        rw [hs]
      rw [poll_of_over hround, howe]
      exact ⟨rfl, { h with owed := congrArg (· ++ [x]) h.owed, stands := .ended _ }⟩
  | ended k =>
      have hround : r.round
          = (.again, if r.mustClose then r.enterClosing else { r with state := .idle }) := by
        unfold Registers.round
        rw [hs]
      dsimp only
      rw [poll_of_again hround]
      by_cases hclose : r.mustClose = true
      · have hover : r.enterClosing.round = (.over none, r.enterClosing) := rfl
        rw [if_pos hclose, if_pos (h.mustClose.symm.trans hclose), poll_of_over hover]
        exact ⟨rfl, h.enterClosing⟩
      · rw [if_neg hclose, if_neg (fun hm => hclose (h.mustClose.trans hm))]
        refine Represents.pollIdle ?_ rfl
        refine { h with stands := ?_ }
        dsimp only
        rw [hc]
        exact .idle _
  | closing =>
      have hround : r.round = (.over none, r) := by
        unfold Registers.round
        rw [hs]
      rw [poll_of_over hround]
      exact ⟨rfl, h⟩

-- ============================================================= sending

theorem Represents.failOutbound (h : Represents r m) :
    Represents r.failOutbound m.failOutbound :=
  { h with buffer := rfl, mustClose := rfl, outbound := rfl, stands := .closing _ _ }

theorem Represents.startResponse (h : Represents r m) (status : Status) (headers : Headers)
    (length : Nat) :
    Agree (r.startResponse status headers length) (m.startResponse status headers length) := by
  have hlast : (r.state == .closing) = (m.phase == .closing) := by
    rw [Bool.eq_iff_iff, beq_iff_eq, beq_iff_eq]
    exact h.stands.closing_iff
  unfold Registers.startResponse Machine.startResponse Machine.closesAfter
  rw [h.outbound, h.owed, hlast, h.mustClose]
  rcases m.outbound with _ | ⟨declared, written, suppress, close⟩ | _
  · rcases m.owed with _ | ⟨x, rest⟩
    · exact ⟨rfl, h⟩
    · dsimp only
      cases headFault? status headers length with
      | some v => exact ⟨rfl, h.failOutbound⟩
      | none => exact ⟨rfl, { h with mustClose := rfl, owed := rfl, outbound := rfl }⟩
  · exact ⟨rfl, h⟩
  · exact ⟨rfl, h⟩

theorem Represents.sendBody (h : Represents r m) (data : Bytes) :
    Agree (r.sendBody data) (m.sendBody data) := by
  unfold Registers.sendBody Machine.sendBody
  rw [h.outbound]
  rcases m.outbound with _ | ⟨declared, written, suppress, close⟩ | _
  · exact ⟨rfl, h⟩
  · dsimp only
    split
    · exact ⟨rfl, h.failOutbound⟩
    · exact ⟨rfl, { h with outbound := rfl }⟩
  · exact ⟨rfl, h⟩

theorem Represents.finishResponse (h : Represents r m) :
    Agree r.finishResponse m.finishResponse := by
  unfold Registers.finishResponse Machine.finishResponse
  rw [h.outbound]
  rcases m.outbound with _ | ⟨declared, written, suppress, close⟩ | _
  · exact ⟨rfl, h⟩
  · dsimp only
    split
    · exact ⟨rfl, h.failOutbound⟩
    · cases close with
      | true => exact ⟨rfl, h.failOutbound⟩
      | false => exact ⟨rfl, { h with outbound := rfl }⟩
  · exact ⟨rfl, h⟩

/-- What may be refused is refused on both sides or on neither. -/
theorem Agree.error_or_ok {α : Type} {p : Except Violation α × Registers}
    {q : Except Violation α × Machine} (h : Agree p q) :
    (∃ v r m, p = (.error v, r) ∧ q = (.error v, m) ∧ Represents r m) ∨
      ∃ a r m, p = (.ok a, r) ∧ q = (.ok a, m) ∧ Represents r m := by
  obtain ⟨result, r⟩ := p
  obtain ⟨result', m⟩ := q
  obtain ⟨rfl, hafter⟩ := h
  cases result with
  | error v => exact Or.inl ⟨v, r, m, rfl, rfl, hafter⟩
  | ok a => exact Or.inr ⟨a, r, m, rfl, rfl, hafter⟩

theorem Represents.sendResponse (h : Represents r m) (response : Response) :
    Agree (r.sendResponse response) (m.sendResponse response) := by
  unfold Registers.sendResponse Machine.sendResponse
  rcases (h.startResponse response.status response.headers response.body.length).error_or_ok
    with ⟨v, r₁, m₁, hr, hm, h₁⟩ | ⟨head, r₁, m₁, hr, hm, h₁⟩
  · rw [hr, hm]
    exact ⟨rfl, h₁⟩
  rw [hr, hm]
  dsimp only
  rcases (h₁.sendBody response.body).error_or_ok
    with ⟨v, r₂, m₂, hr, hm, h₂⟩ | ⟨body, r₂, m₂, hr, hm, h₂⟩
  · rw [hr, hm]
    exact ⟨rfl, h₂⟩
  rw [hr, hm]
  dsimp only
  rcases h₂.finishResponse.error_or_ok
    with ⟨v, r₃, m₃, hr, hm, h₃⟩ | ⟨_, r₃, m₃, hr, hm, h₃⟩
  · rw [hr, hm]
    exact ⟨rfl, h₃⟩
  · rw [hr, hm]
    exact ⟨rfl, h₃⟩

-- =============================================================== calls

/-- What a call gives back, and the registers after it. -/
def call (r : Registers) : Call → Answer × Registers
  | .receive data => (.nothing, r.receive data)
  | .receiveEof => (.nothing, r.receiveEof)
  | .poll => (.polled r.poll.1, r.poll.2)
  | .startResponse status headers length =>
    (.sent (r.startResponse status headers length).1, (r.startResponse status headers length).2)
  | .sendBody data => (.sent (r.sendBody data).1, (r.sendBody data).2)
  | .finishResponse => (.finished r.finishResponse.1, r.finishResponse.2)
  | .sendResponse response =>
    (.sent (r.sendResponse response).1, (r.sendResponse response).2)

/-- What calls that come one after the other give back, and the registers
after the last of them. -/
def calls (r : Registers) : List Call → List Answer × Registers
  | [] => ([], r)
  | c :: cs => ((r.call c).1 :: ((r.call c).2.calls cs).1, ((r.call c).2.calls cs).2)

/-- The events that calls bring. -/
def events (r : Registers) (cs : List Call) : List Event :=
  (r.calls cs).1.filterMap Answer.event?

/-- Every call comes to the same on both sides. -/
theorem Represents.call (h : Represents r m) (c : Call) : Agree (r.call c) (m.call c) := by
  cases c with
  | receive data => exact ⟨rfl, h.receive data⟩
  | receiveEof => exact ⟨rfl, h.receiveEof⟩
  | poll => exact ⟨congrArg Answer.polled h.poll.result, h.poll.after⟩
  | startResponse status headers length =>
      have hs := h.startResponse status headers length
      exact ⟨congrArg Answer.sent hs.result, hs.after⟩
  | sendBody data =>
      exact ⟨congrArg Answer.sent (h.sendBody data).result, (h.sendBody data).after⟩
  | finishResponse =>
      exact ⟨congrArg Answer.finished h.finishResponse.result, h.finishResponse.after⟩
  | sendResponse response =>
      have hs := h.sendResponse response
      exact ⟨congrArg Answer.sent hs.result, hs.after⟩

/-- And so does every run. -/
theorem Represents.calls (h : Represents r m) (cs : List Call) :
    Agree (r.calls cs) (m.calls cs) := by
  induction cs generalizing r m with
  | nil => exact ⟨rfl, h⟩
  | cons c cs ih =>
      have hfirst := h.call c
      have hrest := ih hfirst.after
      exact ⟨congrArg₂ List.cons hfirst.result hrest.result, hrest.after⟩

-- ========================================================= the invariant

/-- How the registers hang together. -/
structure Consistent (r : Registers) : Prop where
  /-- Some of a body that is being read is to come, and no more of it than
  a body may have. -/
  remaining : ∀ n, r.state = .readingBody n → 1 ≤ n ∧ n ≤ r.limits.maxBody.toNat
  /-- A request is kept while its body is read and until its end has been
  reported, -/
  kept : (∃ n, r.state = .readingBody n) ∨ r.state = .messageComplete false →
    ∃ x, r.current = some x
  /-- and none before its head has been read or after its end has been
  reported. -/
  notKept : r.state = .idle ∨ r.state = .readingHeaders ∨ r.state = .messageComplete true →
    r.current = none
  /-- A head that is arriving has begun. -/
  begun : r.state = .readingHeaders → Machine.Begun r.buffer
  /-- Where it has been searched it has no end. -/
  searched : r.state = .readingHeaders →
    r.scanned ≤ r.buffer.length ∧ ¬ Delimiter.mark <:+: r.buffer.take r.scanned
  closing : r.state = .closing → r.buffer = [] ∧ r.mustClose = true
  /-- Of the response under way no more has been given than was declared,
  and if the connection ends with it that is known. -/
  sending : ∀ declared written suppress close,
    r.outbound = .sending declared written suppress close →
      written ≤ declared ∧ (close = true → r.mustClose = true)
  closed : r.outbound = .closed → r.state = .closing
  /-- A request that none may follow makes the connection close, from its
  head on. -/
  current : ∀ x, r.current = some x → x.keepAlive = false → r.mustClose = true
  /-- Nothing more is read after such a request once it is owed an answer. -/
  shut : ∀ x ∈ r.owed, x.keepAlive = false →
    r.mustClose = true ∧ (r.state = .messageComplete true ∨ r.state = .closing)
  /-- Only the last of what is owed may be one that none may follow. -/
  owed : ∀ x ∈ r.owed.dropLast, x.keepAlive = true

/-- Consistent registers amount to a phase. -/
theorem Consistent.stands (h : r.Consistent) :
    ∃ p, Stands r.state r.scanned r.current p := by
  have hkept := h.kept
  have hnone := h.notKept
  generalize r.state = s at hkept hnone
  rcases s with _ | _ | n | emitted | _
  · rw [hnone (Or.inl rfl)]
    exact ⟨_, .idle _⟩
  · rw [hnone (Or.inr (Or.inl rfl))]
    exact ⟨_, .readingHeaders _⟩
  · obtain ⟨x, hx⟩ := hkept (Or.inl ⟨n, rfl⟩)
    rw [hx]
    exact ⟨_, .readingBody n _ x⟩
  · cases emitted with
    | false =>
        obtain ⟨x, hx⟩ := hkept (Or.inr rfl)
        rw [hx]
        exact ⟨_, .complete _ x⟩
    | true =>
        rw [hnone (Or.inr (Or.inr rfl))]
        exact ⟨_, .ended _⟩
  · exact ⟨_, .closing _ _⟩

/-- Consistent registers represent a machine. -/
theorem Consistent.represents (h : r.Consistent) : ∃ m, Represents r m := by
  obtain ⟨p, hp⟩ := h.stands
  let m : Machine := {
    limits := r.limits
    buffer := r.buffer
    phase := p
    mustClose := r.mustClose
    eof := r.eof
    owed := r.owed
    outbound := r.outbound }
  have h : Represents r m := {
    limits := rfl
    buffer := rfl
    mustClose := rfl
    eof := rfl
    owed := rfl
    outbound := rfl
    stands := hp }
  exact ⟨m, h⟩

/-- Registers are as consistent as the machine that they represent. -/
theorem Represents.consistent_iff (h : Represents r m) : r.Consistent ↔ m.Consistent := by
  have hstands := h.stands
  have hbuffer := h.buffer
  have hclose := h.mustClose
  constructor
  · intro hr
    refine {
      remaining := fun x n hp => ?_
      begun := fun k hp => ?_
      searched := fun k hp => ?_
      closing := fun hp => ?_
      sending := fun d w s c ho => ?_
      closed := fun ho => ?_
      current := fun x hx hk => ?_
      shut := fun x hx hk => ?_
      owed := h.owed ▸ hr.owed }
    · exact h.limits ▸ hr.remaining n (hstands.readingBody_iff.2 ⟨x, hp⟩)
    · exact hbuffer ▸ hr.begun (hstands.readingHead_iff.1 hp).1
    · obtain ⟨hs, rfl⟩ := hstands.readingHead_iff.1 hp
      exact hbuffer ▸ hr.searched hs
    · exact hbuffer ▸ hclose ▸ hr.closing (hstands.closing_iff.2 hp)
    · exact hclose ▸ hr.sending d w s c (h.outbound.trans ho)
    · exact hstands.closing_iff.1 (hr.closed (h.outbound.trans ho))
    · have hopen : m.phase ≠ .closing := fun hp => by
        rw [hp] at hx
        cases hx
      exact hclose ▸ hr.current x ((hstands.kept_eq hopen).trans hx) hk
    · obtain ⟨hmust, hs⟩ := hr.shut x (h.owed ▸ hx) hk
      exact ⟨hclose ▸ hmust, hs.imp hstands.ended_iff.1 hstands.closing_iff.1⟩
  · intro hm
    refine {
      remaining := fun n hs => ?_
      kept := fun hs => ?_
      notKept := fun hs => ?_
      begun := fun hs => ?_
      searched := fun hs => ?_
      closing := fun hs => ?_
      sending := fun d w s c ho => ?_
      closed := fun ho => ?_
      current := fun x hx hk => ?_
      shut := fun x hx hk => ?_
      owed := h.owed ▸ hm.owed }
    · obtain ⟨x, hp⟩ := hstands.readingBody_iff.1 hs
      exact h.limits ▸ hm.remaining x n hp
    · generalize r.state = s, r.current = kept, m.phase = p at hstands hs
      cases hstands with
      | readingBody n k x => exact ⟨x, rfl⟩
      | complete k x => exact ⟨x, rfl⟩
      | _ => simp at hs
    · generalize r.state = s, r.current = kept, m.phase = p at hstands hs
      cases hstands with
      | idle | readingHeaders | ended => rfl
      | _ => simp at hs
    · exact hbuffer ▸ hm.begun _ (hstands.readingHead_iff.2 ⟨hs, rfl⟩)
    · exact hbuffer ▸ hm.searched _ (hstands.readingHead_iff.2 ⟨hs, rfl⟩)
    · exact hbuffer ▸ hclose ▸ hm.closing (hstands.closing_iff.1 hs)
    · exact hclose ▸ hm.sending d w s c (h.outbound.symm.trans ho)
    · exact hstands.closing_iff.2 (hm.closed (h.outbound.symm.trans ho))
    · by_cases hp : m.phase = .closing
      · exact hclose.trans (hm.closing hp).2
      · exact hclose.trans (hm.current x ((hstands.kept_eq hp).symm.trans hx) hk)
    · obtain ⟨hmust, hp⟩ := hm.shut x (h.owed ▸ hx) hk
      exact ⟨hclose.trans hmust, hp.imp hstands.ended_iff.2 hstands.closing_iff.2⟩

-- ====================================================== what is for good

/-- What registers can only become. -/
structure Persists (r r' : Registers) : Prop where
  limits : r'.limits = r.limits
  closing : r.state = .closing → r'.state = .closing
  mustClose : r.mustClose = true → r'.mustClose = true
  writeClosed : r.isWriteClosed = true → r'.isWriteClosed = true
  wantsRead : r.wantsRead = false → r'.wantsRead = false

theorem Represents.isWriteClosed_eq (h : Represents r m) :
    r.isWriteClosed = m.isWriteClosed := by
  unfold Registers.isWriteClosed Machine.isWriteClosed
  rw [h.outbound]

theorem Represents.wantsRead_eq (h : Represents r m) : r.wantsRead = m.wantsRead := by
  have hs : (r.state != .closing) = (m.phase != .closing) := by
    rw [Bool.eq_iff_iff, bne_iff_ne, bne_iff_ne]
    exact not_congr h.stands.closing_iff
  unfold Registers.wantsRead Machine.wantsRead
  rw [hs, h.eof]

theorem Represents.persists (h : Represents r m) (h' : Represents r' m')
    (hp : Machine.Persists m m') : Persists r r' where
  limits := by rw [h.limits, h'.limits, hp.limits]
  closing hs := h'.stands.closing_iff.2 (hp.closing (h.stands.closing_iff.1 hs))
  mustClose hc := h'.mustClose.trans (hp.mustClose (h.mustClose.symm.trans hc))
  writeClosed hc := by
    rw [h'.isWriteClosed_eq]
    exact hp.writeClosed (h.isWriteClosed_eq.symm.trans hc)
  wantsRead hw := by
    rw [h'.wantsRead_eq]
    exact hp.wantsRead (h.wantsRead_eq.symm.trans hw)

/-- New registers are consistent. Whatever is called of consistent
registers leaves them so; that they read no more, must close or may not
write any more is for good; and if they owe an answer to a request that
none may follow, they will owe no others than they do.

From the start they give back what a machine does and go on to represent
it; and until the reading is over, what they keep of a request is kept of
the one whose head has been reported and whose end has not. -/
theorem consistent_calls :
    (∀ limits, (start limits).Consistent) ∧
      (∀ r : Registers, r.Consistent → ∀ cs,
        (r.calls cs).2.Consistent ∧ Persists r (r.calls cs).2 ∧
          ∀ x ∈ r.owed, x.keepAlive = false → (r.calls cs).2.owed <:+ r.owed) ∧
      ∀ limits cs,
        Agree ((start limits).calls cs) ((Machine.start limits).calls cs) ∧
          (((start limits).calls cs).2.state ≠ .closing →
            ((start limits).calls cs).2.current
              = (Tally.noteAll {} ((start limits).events cs)).arriving.map Request.exchange) := by
  refine ⟨fun limits => ?_, ?_, ?_⟩
  · exact (represents_start limits).consistent_iff.2 (.start limits)
  · intro r hr cs
    obtain ⟨m, h⟩ := hr.represents
    have hm : m.Consistent := h.consistent_iff.1 hr
    have hafter : Represents (r.calls cs).2 (m.calls cs).2 := (h.calls cs).after
    obtain ⟨hlast, hpersists⟩ := hm.calls cs
    refine ⟨hafter.consistent_iff.2 hlast, h.persists hafter hpersists, ?_⟩
    intro x hx hk
    rw [h.owed] at hx ⊢
    rw [hafter.owed]
    obtain ⟨hclose, hphase⟩ := hm.shut x hx hk
    exact Machine.Shut.suffix_owed_calls hm.valid ⟨hclose, hphase⟩ cs
  · intro limits cs
    have hagree := (represents_start limits).calls cs
    refine ⟨hagree, fun hopen => ?_⟩
    have hp := fun hc => hopen (hagree.after.stands.closing_iff.2 hc)
    have hevents : (start limits).events cs = (Machine.start limits).events cs := by
      unfold Registers.events Machine.events
      rw [hagree.result]
    rw [hagree.after.stands.kept_eq hp, hevents, ← Machine.noted_history]
    exact Machine.exchange?_calls limits cs hp

/-- Two requests, the second of which none may follow, and part of a third,
which is dropped while the first is answered. -/
theorem consistent_calls_closing :
    ∃ (r : Registers) (cs : List Call), r.Consistent ∧ r.owed.map (·.keepAlive) = [true, false] ∧
      (r.calls cs).2.owed.map (·.keepAlive) = [false] ∧ (r.calls cs).2.Consistent ∧
      Persists r (r.calls cs).2 ∧ (r.calls cs).2.owed <:+ r.owed := by
  obtain ⟨hstart, hcalls, -⟩ := consistent_calls
  have hrun : ∃ cs more : List Call,
      ((start {}).calls cs).2.owed.map (·.keepAlive) = [true, false] ∧
        (((start {}).calls cs).2.calls more).2.owed.map (·.keepAlive) = [false] :=
    ⟨[.receive (Text.Utf8.encode
        "GET /a HTTP/1.1\r\n\r\nGET /b HTTP/1.0\r\n\r\nGET /c HTTP/1.1\r\n\r\nGE"),
        .poll, .poll, .poll, .poll],
      [.startResponse .ok [] 2, .poll, .sendBody [97], .receiveEof, .poll, .sendBody [98],
        .finishResponse], by decide +kernel⟩
  obtain ⟨cs, more, howed, hrest⟩ := hrun
  have hr := (hcalls _ (hstart {}) cs).1
  obtain ⟨hlast, hpersists, hsuffix⟩ := hcalls _ hr more
  have hmem : false ∈ ((start {}).calls cs).2.owed.map (·.keepAlive) := by
    rw [howed]
    decide
  obtain ⟨x, hx, hk⟩ := List.mem_map.1 hmem
  exact ⟨_, more, hr, howed, hrest, hlast, hpersists, hsuffix x hx hk⟩

/-- A response that ends the reading within a body leaves what was kept of
the request behind. -/
example :
    let r := ((start {}).calls
      [.receive (Text.Utf8.encode
          "GET /a HTTP/1.1\r\n\r\nPOST /b HTTP/1.1\r\nContent-Length: 3\r\n\r\nx"),
        .poll, .poll, .poll, .poll,
        .sendResponse { status := .ok, headers := [⟨"connection", "close"⟩] }]).2
    r.state = .closing ∧ r.current = some ⟨false, true, false⟩ := by
  decide +kernel

end WireHttp.Registers
