/-
Request methods. The nine common verbs have names of their own; any
other token is kept as it was sent, so that whoever answers the request
can decide about it. Verbs are told apart by case.
-/
import WireHttp.Token

namespace WireHttp

/-- What a request asks to be done with its target. -/
inductive Method
  | get
  | post
  | put
  | delete
  | head
  | options
  | patch
  | connect
  | trace
  /-- Any other token. -/
  | other (token : String)
  deriving DecidableEq, Repr

namespace Method

/-- The token a method is written as. -/
def text : Method → String
  | get => "GET"
  | post => "POST"
  | put => "PUT"
  | delete => "DELETE"
  | head => "HEAD"
  | options => "OPTIONS"
  | patch => "PATCH"
  | connect => "CONNECT"
  | trace => "TRACE"
  | other token => token

/-- The common verbs. -/
def verbs : List Method :=
  [get, post, put, delete, head, options, patch, connect, trace]

/-- The method that a text names; `none` if the text is no token. -/
def ofText? (s : String) : Option Method :=
  match verbs.find? (·.text = s) with
  | some verb => some verb
  | none => if isToken s.toList then some (other s) else none

theorem isToken_text_of_mem_verbs : ∀ m ∈ verbs, isToken m.text.toList = true := by
  decide

/-- A method read from a text is written as that text, which is a token. -/
theorem ofText?_eq_some {s : String} {m : Method} (h : ofText? s = some m) :
    m.text = s ∧ isToken s.toList = true := by
  unfold ofText? at h
  split at h
  · next verb hv =>
    obtain rfl := Option.some.inj h
    have hs : verb.text = s := by simpa using List.find?_some hv
    exact ⟨hs, hs ▸ isToken_text_of_mem_verbs _ (List.mem_of_find?_eq_some hv)⟩
  · split at h
    · next ht => exact Option.some.inj h ▸ ⟨rfl, ht⟩
    · cases h

/-- Every token names a method. -/
theorem isSome_ofText? {s : String} (h : isToken s.toList = true) : (ofText? s).isSome = true := by
  unfold ofText?
  split <;> simp [h]

end Method

end WireHttp
