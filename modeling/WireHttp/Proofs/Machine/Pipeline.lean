/-
Pipelined requests come out as they were written. The bytes of any number
of requests, one after the other and with blank lines before each, bring
the events of those requests and no others (`drain_pipeline`).

One request takes three polls at most (`drain_of_whole`): its head, its
body if it has one, and its end. Each poll uses up the bytes of its own
part, so the next request begins where this one ends, and what a body
holds is never looked at.
-/
import WireHttp.Proofs.Head.Written
import WireHttp.Proofs.Machine.Grammar
import WireHttp.Proofs.Machine.Items

namespace WireHttp

namespace Machine

-- ======================================================= the whole request

/-- Where a head can be read something other than a blank line has
arrived. -/
theorem Between.facing {m : Machine} (h : m.Between) {head : Head} {consumed : Nat}
    (hr : Head.read m.limits m.skipped.buffer = .ok (head, consumed)) : Facing m m.skipped := by
  refine .begun h ?_
  have hc := Head.consumed_of_read hr
  rw [Delimiter.length_mark] at hc
  rintro (hb | hb)
  · rw [hb, List.length_nil] at hc
    omega
  · rw [hb, List.length_singleton] at hc
    omega

/-- The machine once a request has been read whole, and its end has been
reported. -/
def afterWhole (m : Machine) (head : Head) (rest : Bytes) : Machine :=
  { m with
    phase := .ended
    buffer := rest
    mustClose := m.mustClose || !head.keepAlive
    owed := m.owed ++ [.ofHead head] }

theorem valid_afterWhole (m : Machine) (head : Head) (rest : Bytes) :
    (m.afterWhole head rest).Valid :=
  ⟨nofun, nofun, nofun⟩

theorem drain_of_complete {m : Machine} (hv : m.Valid) {x : Exchange}
    (hp : m.phase = .complete x) :
    m.drain = (.messageEnd :: { m with phase := .ended, owed := m.owed ++ [x] }.drain.1,
      { m with phase := .ended, owed := m.owed ++ [x] }.drain.2) :=
  drain_of_some ((polls_iff hv).1 (.messageEnd x hp))

/-- A head, and after it all of its body, bring the events of one
request. -/
theorem drain_of_whole {m : Machine} (hv : m.Valid) (hb : m.Between) {head : Head}
    {consumed : Nat} {body rest : Bytes}
    (hr : Head.read m.limits m.skipped.buffer = .ok (head, consumed))
    (hbody : m.skipped.buffer.drop consumed = body ++ rest)
    (hlen : body.length = head.contentLength) :
    m.drain =
      (Event.opening head (if body = [] then [] else [body])
          ++ .messageEnd :: (m.afterWhole head rest).drain.1,
        (m.afterWhole head rest).drain.2) := by
  have hhead := drain_of_some ((polls_iff hv).1 (.head (hb.facing hr) hr))
  have hva := valid_acceptHead m.skipped head consumed
  by_cases hnil : body = []
  · have hzero : head.contentLength = 0 := by rw [← hlen, hnil, List.length_nil]
    have haccept : m.skipped.acceptHead head consumed
        = { m with
            phase := .complete (.ofHead head)
            buffer := rest
            mustClose := m.mustClose || !head.keepAlive } := by
      unfold acceptHead
      rw [hbody, hnil, List.nil_append, if_pos hzero]
      rfl
    rw [haccept] at hhead hva
    rw [hhead, drain_of_complete hva rfl, if_pos hnil]
    rfl
  · have hpos : head.contentLength ≠ 0 := by
      intro hzero
      exact hnil (List.length_eq_zero_iff.1 (hlen.trans hzero))
    have haccept : m.skipped.acceptHead head consumed
        = { m with
            phase := .readingBody (.ofHead head) head.contentLength
            buffer := body ++ rest
            mustClose := m.mustClose || !head.keepAlive } := by
      unfold acceptHead
      rw [hbody, if_neg hpos]
      rfl
    rw [haccept] at hhead hva
    have hdata : body ++ rest ≠ [] := fun h => hnil (List.append_eq_nil_iff.1 h).1
    have hchunk := drain_of_some ((polls_iff hva).1 (.chunk _ _ rfl hdata))
    have hvc := valid_acceptChunk
      { m with
        phase := .readingBody (.ofHead head) head.contentLength
        buffer := body ++ rest
        mustClose := m.mustClose || !head.keepAlive } (.ofHead head) head.contentLength
    unfold acceptChunk at hchunk hvc
    dsimp only at hchunk hvc
    rw [← hlen, List.take_left, List.drop_left, Nat.sub_self, if_pos rfl] at hchunk hvc
    rw [← hlen] at hhead
    rw [hhead, hchunk, drain_of_complete hvc rfl, if_neg hnil]
    rfl

end Machine

-- ============================================================= pipelines

/-- The events of a request whose body arrives in one piece. -/
def Request.events (r : Request) : List Event :=
  Event.opening r.head (if r.body = [] then [] else [r.body]) ++ [.messageEnd]

/-- So many blank lines. -/
def blankLines (n : Nat) : Bytes :=
  (List.replicate n [13, 10]).flatten

/-- The bytes of requests, each after some blank lines. -/
def pipeline (rs : List (Nat × Request)) : Bytes :=
  rs.flatMap fun (blanks, r) => blankLines blanks ++ r.render

theorem skipBlankLines_blankLines (n : Nat) (bs : Bytes) :
    Machine.skipBlankLines (blankLines n ++ bs) = Machine.skipBlankLines bs := by
  induction n with
  | zero => rfl
  | succ n ih => exact ih

/-- A request line does not begin like a blank line. -/
theorem Request.WellFormed.skipBlankLines_render {limits : Limits} {r : Request}
    (h : r.WellFormed limits) (rest : Bytes) :
    Machine.skipBlankLines (r.render ++ rest) = r.render ++ rest := by
  have hne : Text.Utf8.encode r.method.text ≠ [] :=
    Text.Utf8.encodeChars_ne_nil (isToken_iff.1 h.isToken_method).1
  have hcr : 13 ∉ Text.Utf8.encode r.method.text :=
    Text.Utf8.cr_notMem_encodeChars (notMem_of_isToken h.isToken_method (by decide))
  obtain ⟨b, bs, hb⟩ := List.exists_cons_of_ne_nil hne
  rw [hb] at hcr
  apply Machine.skipBlankLines_eq_self
  intro hp
  simp only [render, renderHead, Text.Utf8.encode_append, hb, List.append_assoc,
    List.cons_append, List.cons_prefix_cons] at hp
  apply hcr
  rw [hp.1]
  exact List.mem_cons_self

namespace Machine

theorem drain_of_pipeline {m : Machine} (hv : m.Valid) (hb : m.Between)
    (hc : m.mustClose = false) (he : m.eof = false) {rs : List (Nat × Request)}
    (hr : ∀ p ∈ rs, p.2.WellFormed m.limits ∧ p.2.keepAlive = true)
    (hbuf : m.buffer = pipeline rs) :
    m.drain = (rs.flatMap fun p => p.2.events,
      { m with phase := .idle, buffer := [], owed := m.owed ++ rs.map fun p => p.2.exchange }) := by
  induction rs generalizing m with
  | nil =>
      have hnil : m.skipped = { m with phase := .idle, buffer := [] } := by
        unfold skipped
        rw [hbuf]
        rfl
      have hpoll := (polls_iff hv).1 (.waits (.between hb (by rw [hnil]; exact Or.inl rfl)) he)
      rw [drain_of_none hpoll, hnil, List.map_nil, List.append_nil]
      rfl
  | cons p rs ih =>
      obtain ⟨blanks, r⟩ := p
      obtain ⟨hwf, hkeep⟩ := hr (blanks, r) List.mem_cons_self
      have hskip : m.skipped.buffer = r.renderHead ++ (r.body ++ pipeline rs) := by
        show skipBlankLines m.buffer = _
        rw [hbuf, pipeline, List.flatMap_cons, List.append_assoc, skipBlankLines_blankLines,
          hwf.skipBlankLines_render, Request.render, List.append_assoc]
        rfl
      have hread : Head.read m.limits m.skipped.buffer = .ok (r.head, r.renderHead.length) := by
        rw [hskip]
        exact hwf.read_render _
      have hbody : m.skipped.buffer.drop r.renderHead.length = r.body ++ pipeline rs := by
        rw [hskip, List.drop_left]
      have hopen : (m.mustClose || !r.head.keepAlive) = m.mustClose := by
        rw [show r.head.keepAlive = true from hkeep, Bool.not_true, Bool.or_false]
      have hafter : m.afterWhole r.head (pipeline rs)
          = { m with phase := .ended, buffer := pipeline rs, owed := m.owed ++ [r.exchange] } := by
        unfold afterWhole
        rw [hopen]
        rfl
      have hvn := valid_afterWhole m r.head (pipeline rs)
      rw [drain_of_whole hv hb hread hbody rfl]
      rw [hafter] at hvn ⊢
      rw [ih hvn (Or.inr ⟨rfl, hc⟩) hc he (fun q hq => hr q (List.mem_cons_of_mem _ hq)) rfl]
      dsimp only
      rw [List.append_assoc, List.flatMap_cons, Request.events, List.append_assoc, List.map_cons]
      rfl

/-- The bytes of well-formed requests after none of which the connection
must end, with any number of blank lines before each, bring those requests
in their order, and nothing else; then the machine is idle again, and owes
an answer to each. -/
theorem drain_pipeline (limits : Limits) (rs : List (Nat × Request))
    (hr : ∀ p ∈ rs, p.2.WellFormed limits ∧ p.2.keepAlive = true) :
    ((start limits).receive (pipeline rs)).drain =
      (rs.flatMap fun p => p.2.events,
        { start limits with owed := rs.map fun p => p.2.exchange }) :=
  drain_of_pipeline ((Valid.start limits).receive _) (Or.inl rfl) rfl rfl hr rfl

/-- A body that reads like a request, its length told twice, and after it
a request of version 1.0. -/
theorem drain_pipeline_nested :
    ∃ rs : List (Nat × Request),
      (∀ p ∈ rs, p.2.WellFormed {} ∧ p.2.keepAlive = true) ∧
        rs.map (fun p => p.2.body.length) = [18, 0] ∧
          ((start {}).receive (pipeline rs)).drain =
            (rs.flatMap fun p => p.2.events,
              { start {} with owed := rs.map fun p => p.2.exchange }) := by
  have hr : ∀ p ∈ [(2, ({
        method := .post
        target := "/a"
        version := .http11
        headers := [⟨"Content-Length", "18"⟩, ⟨"content-length", "018"⟩]
        body := Text.Utf8.encode "GET / HTTP/1.1\r\n\r\n" } : Request)),
      (0, {
        method := .other "brew"
        target := "/é"
        version := .http10
        headers := [⟨"Connection", "x, Keep-Alive"⟩]
        body := [] })], p.2.WellFormed {} ∧ p.2.keepAlive = true := by
    intro p hp
    rw [List.mem_cons, List.mem_singleton] at hp
    rcases hp with rfl | rfl
    · refine ⟨⟨by decide, by decide, by simp, ?_, by decide, Or.inr (by decide),
        by decide +kernel, by decide +kernel⟩, by decide⟩
      intro h hh
      rw [List.mem_cons, List.mem_singleton] at hh
      rcases hh with rfl | rfl
      · exact ⟨by decide, by simp, by simp [Text.isOws], by simp [Text.isOws]⟩
      · exact ⟨by decide, by simp, by simp [Text.isOws], by simp [Text.isOws]⟩
    · refine ⟨⟨by decide, by decide, by simp, ?_, by decide, Or.inl ⟨rfl, by decide⟩,
        by decide +kernel, by decide⟩, by decide⟩
      intro h hh
      rw [List.mem_singleton] at hh
      subst hh
      exact ⟨by decide, by simp, by simp [Text.isOws], by simp [Text.isOws]⟩
  exact ⟨_, hr, by decide +kernel, drain_pipeline {} _ hr⟩

end Machine

end WireHttp
