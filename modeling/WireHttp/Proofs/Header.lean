/-
What persistence depends on. The `Connection` headers of a message carry
options: the elements of their values, in any case of letters. Proxies
are free to lay such headers out anew, so two ends of a connection agree
on whether it persists only if nothing but the options counts.

A header block may be laid out anew in four ways, and by any of them after
another (`Relaid`): its lines change their order; headers of other names
come or go; letters change their case; and several `Connection` headers
are joined into one, with commas between their values, or one is taken
apart at its commas. The first only reorders the options and the others
keep them as they are (`options_of_letters`, `options_join`), so what is
listed stays the same (`Relaid.lists_iff`).

Persistence is a function of that: a connection persists if no option is
`close`, and by its version or by an option `keep-alive`
(`keepAlive_by_options`).
-/
import Mathlib.Data.List.Forall2
import WireHttp.Header
import WireHttp.Proofs.Text.Elements

namespace WireHttp

theorem Header.elements_eq (h : Header) : h.elements = Text.elements h.value.toList := rfl

/-- The names of two headers are the same up to the case of letters, and so
are their values. -/
def Header.SameIgnoringCase (h k : Header) : Prop :=
  Text.sameIgnoringCase h.name.toList k.name.toList = true ∧
    Text.sameIgnoringCase h.value.toList k.value.toList = true

instance (h k : Header) : Decidable (h.SameIgnoringCase k) :=
  inferInstanceAs (Decidable (_ ∧ _))

theorem Header.SameIgnoringCase.isNamed_eq {h k : Header} (hk : h.SameIgnoringCase k)
    (name : String) : h.isNamed name = k.isNamed name := by
  rw [Header.isNamed, Header.isNamed, Text.sameIgnoringCase, Text.sameIgnoringCase,
    Text.sameIgnoringCase_iff.1 hk.1]

theorem Header.SameIgnoringCase.foldCase_elements_eq {h k : Header} (hk : h.SameIgnoringCase k) :
    h.elements.map Text.foldCase = k.elements.map Text.foldCase := by
  rw [h.elements_eq, k.elements_eq, ← Text.elements_foldCase, ← Text.elements_foldCase,
    Text.sameIgnoringCase_iff.1 hk.2]

namespace Headers

-- ============================================================== options

/-- A `Connection` header lists this option, in any case of letters. -/
def Lists (hs : Headers) (option : String) : Prop :=
  ∃ h ∈ hs, h.isNamed "Connection" = true ∧
    ∃ element, Text.Lists h.value.toList element ∧
      Text.sameIgnoringCase element option.toList = true

/-- The options of a header block in small letters, in order. -/
def options (hs : Headers) : List (List Char) :=
  (hs.elements "Connection").map Text.foldCase

@[simp] theorem options_append (hs ks : Headers) :
    (hs ++ ks).options = hs.options ++ ks.options := by
  simp [options]

theorem options_cons_of_named {h : Header} (hn : h.isNamed "Connection" = true) (hs : Headers) :
    options (h :: hs) = h.elements.map Text.foldCase ++ hs.options := by
  have hkept : (h :: hs).filter (·.isNamed "Connection")
      = h :: hs.filter (·.isNamed "Connection") := List.filter_cons_of_pos hn
  rw [options, elements, hkept, List.flatMap_cons, List.map_append]
  rfl

theorem options_cons_of_other {h : Header} (hn : h.isNamed "Connection" = false) (hs : Headers) :
    options (h :: hs) = hs.options := by
  have hdropped : (h :: hs).filter (·.isNamed "Connection")
      = hs.filter (·.isNamed "Connection") := List.filter_cons_of_neg (Bool.eq_false_iff.1 hn)
  rw [options, elements, hdropped]
  rfl

theorem hasToken_iff {hs : Headers} {option : String} :
    hs.hasToken "Connection" option = true ↔ Text.foldCase option.toList ∈ hs.options := by
  simp [hasToken, options, Text.sameIgnoringCase_iff]

theorem lists_iff {hs : Headers} {option : String} :
    hs.Lists option ↔ Text.foldCase option.toList ∈ hs.options := by
  simp only [Lists, options, elements, List.mem_map, List.mem_flatMap, List.mem_filter,
    Text.sameIgnoringCase_iff, ← Text.mem_elements_iff, ← Header.elements_eq]
  constructor
  · rintro ⟨h, hmem, hn, element, helement, hfold⟩
    exact ⟨element, ⟨h, ⟨hmem, hn⟩, helement⟩, hfold⟩
  · rintro ⟨element, ⟨h, ⟨hmem, hn⟩, helement⟩, hfold⟩
    exact ⟨h, hmem, hn, element, helement, hfold⟩

-- ======================================================= laid out anew

/-- One header block is another laid out anew. -/
inductive Relaid : Headers → Headers → Prop
  /-- The lines change their order. -/
  | order {hs ks : Headers} (perm : hs.Perm ks) : Relaid hs ks
  /-- A header of another name goes. -/
  | other {h : Header} {hs : Headers} (unnamed : h.isNamed "Connection" = false) :
      Relaid (h :: hs) hs
  /-- Letters change their case, in names and in values. -/
  | letters {hs ks : Headers} (same : List.Forall₂ Header.SameIgnoringCase hs ks) : Relaid hs ks
  /-- Several `Connection` headers become one, their values joined by
  commas. -/
  | join {parts hs : Headers} {whole : Header} (nonempty : parts ≠ [])
      (parts_named : ∀ h ∈ parts, h.isNamed "Connection" = true)
      (whole_named : whole.isNamed "Connection" = true)
      (value : whole.value = ",".intercalate (parts.map (·.value))) :
      Relaid (parts ++ hs) (whole :: hs)
  /-- Each of these is undone: a header of another name comes, and one
  `Connection` header becomes several, its value split at commas. -/
  | undo {hs ks : Headers} (h : Relaid hs ks) : Relaid ks hs
  /-- One of these follows another. -/
  | next {hs ks ls : Headers} (h : Relaid hs ks) (h' : Relaid ks ls) : Relaid hs ls

theorem options_perm {hs ks : Headers} (h : hs.Perm ks) : hs.options.Perm ks.options :=
  ((h.filter _).flatMap_right _).map _

theorem options_of_letters {hs ks : Headers} (h : List.Forall₂ Header.SameIgnoringCase hs ks) :
    hs.options = ks.options := by
  induction h with
  | nil => rfl
  | @cons h k hs ks hk hrest ih =>
      by_cases hn : h.isNamed "Connection" = true
      · rw [options_cons_of_named hn, options_cons_of_named ((hk.isNamed_eq _).symm.trans hn),
          hk.foldCase_elements_eq, ih]
      · rw [Bool.not_eq_true] at hn
        rw [options_cons_of_other hn, options_cons_of_other ((hk.isNamed_eq _).symm.trans hn), ih]

theorem options_of_named {hs : Headers} (h : ∀ k ∈ hs, k.isNamed "Connection" = true) :
    hs.options = (hs.flatMap (·.elements)).map Text.foldCase := by
  rw [options, elements, List.filter_eq_self.2 h]

/-- A value that joins others by commas has the elements of each. -/
theorem elements_of_joined {parts : Headers} {whole : Header} (nonempty : parts ≠ [])
    (value : whole.value = ",".intercalate (parts.map (·.value))) :
    whole.elements = parts.flatMap (·.elements) := by
  have hvalues : parts.map (·.value.toList) ≠ [] := fun hn => nonempty (List.map_eq_nil_iff.1 hn)
  calc whole.elements
      = Text.elements ([','].intercalate (parts.map (·.value.toList))) := by
        rw [whole.elements_eq, value, String.toList_intercalate, List.map_map]
        rfl
    _ = (parts.map (·.value.toList)).flatMap Text.elements := Text.elements_intercalate hvalues
    _ = parts.flatMap (·.elements) := List.flatMap_map _ _ _

theorem options_join {parts hs : Headers} {whole : Header} (nonempty : parts ≠ [])
    (parts_named : ∀ h ∈ parts, h.isNamed "Connection" = true)
    (whole_named : whole.isNamed "Connection" = true)
    (value : whole.value = ",".intercalate (parts.map (·.value))) :
    (parts ++ hs).options = options (whole :: hs) := by
  rw [options_append, options_of_named parts_named, options_cons_of_named whole_named,
    elements_of_joined nonempty value]

/-- Laying a header block out anew at most reorders its options. -/
theorem Relaid.options_perm {hs ks : Headers} (h : Relaid hs ks) : hs.options.Perm ks.options := by
  induction h with
  | order perm => exact Headers.options_perm perm
  | other unnamed => rw [options_cons_of_other unnamed]
  | letters same => rw [options_of_letters same]
  | join nonempty parts_named whole_named value =>
      rw [options_join nonempty parts_named whole_named value]
  | undo _ ih => exact ih.symm
  | next _ _ ih ih' => exact ih.trans ih'

/-- A header block that is laid out anew lists what it listed. -/
theorem Relaid.lists_iff {hs ks : Headers} (h : Relaid hs ks) (option : String) :
    hs.Lists option ↔ ks.Lists option := by
  rw [Headers.lists_iff, Headers.lists_iff, h.options_perm.mem_iff]

-- ========================================================== persistence

/-- A connection persists just if `close` is not listed, and either the
version is 1.1 or `keep-alive` is. -/
theorem keepAlive_iff {version : Version} {hs : Headers} :
    hs.keepAlive version = true ↔
      ¬ hs.Lists "close" ∧ (version = .http11 ∨ hs.Lists "keep-alive") := by
  rw [lists_iff, lists_iff, ← hasToken_iff, ← hasToken_iff]
  unfold keepAlive asksClose asksKeepAlive
  cases hs.hasToken "Connection" "close" with
  | true => simp
  | false => cases version <;> simp

theorem keepAlive_eq_of_lists {hs ks : Headers} (h : ∀ option, hs.Lists option ↔ ks.Lists option)
    (version : Version) : hs.keepAlive version = ks.keepAlive version := by
  rw [Bool.eq_iff_iff, keepAlive_iff, keepAlive_iff, h, h]

/-- Whether a connection persists is told by the options that are listed:
it does not if `close` is, and otherwise does by version 1.1 or if
`keep-alive` is. Header blocks that list the same persist alike, so in
particular one that is laid out anew persists as it did. -/
theorem keepAlive_by_options (version : Version) (hs : Headers) :
    (hs.keepAlive version = true ↔
      ¬ hs.Lists "close" ∧ (version = .http11 ∨ hs.Lists "keep-alive")) ∧
    (∀ ks : Headers, (∀ option, hs.Lists option ↔ ks.Lists option) →
      hs.keepAlive version = ks.keepAlive version) ∧
    ∀ ks : Headers, Relaid hs ks → hs.keepAlive version = ks.keepAlive version :=
  ⟨keepAlive_iff, fun _ h => keepAlive_eq_of_lists h version,
    fun _ h => keepAlive_eq_of_lists h.lists_iff version⟩

/-- Two headers that keep a connection of version 1.0 open are joined, put
in small letters and parted from the header before them, and another is
put after them. And an option that is listed twice counts once. -/
theorem keepAlive_by_options_joined :
    (∃ hs ks : Headers,
      hs = [⟨"Host", "a"⟩, ⟨"connection", "Upgrade"⟩, ⟨"CONNECTION", " Keep-Alive\t"⟩] ∧
      ks = [⟨"Connection", "upgrade, keep-alive\t"⟩, ⟨"Accept", "*/*"⟩] ∧
      Relaid hs ks ∧ hs.keepAlive .http10 = true ∧ ks.keepAlive .http10 = true) ∧
    ∃ hs ks : Headers,
      hs = [⟨"Connection", "close ,Close"⟩] ∧ ks = [⟨"Connection", "close"⟩] ∧
      (∀ option, hs.Lists option ↔ ks.Lists option) ∧
      hs.keepAlive .http11 = ks.keepAlive .http11 := by
  refine ⟨⟨_, _, rfl, rfl, ?_⟩, ⟨_, _, rfl, rfl, ?_⟩⟩
  · let parts : Headers := [⟨"Connection", "upgrade"⟩, ⟨"Connection", " keep-alive\t"⟩]
    have hhost : Header.isNamed ⟨"Host", "a"⟩ "Connection" = false := by decide
    have haccept : Header.isNamed ⟨"Accept", "*/*"⟩ "Connection" = false := by decide
    have hsmall : Relaid [⟨"connection", "Upgrade"⟩, ⟨"CONNECTION", " Keep-Alive\t"⟩] parts :=
      .letters (.cons (by decide) (.cons (by decide) .nil))
    have hjoined : Relaid (parts ++ []) [⟨"Connection", "upgrade, keep-alive\t"⟩] :=
      .join (by decide) (by decide) (by decide) (by decide)
    have hrelaid := Relaid.next (.other hhost) (.next hsmall (.next hjoined
      (.next (.undo (.other haccept)) (.order (.swap _ _ _)))))
    obtain ⟨-, -, hkept⟩ := keepAlive_by_options .http10
      [⟨"Host", "a"⟩, ⟨"connection", "Upgrade"⟩, ⟨"CONNECTION", " Keep-Alive\t"⟩]
    exact ⟨hrelaid, by decide, (hkept _ hrelaid).symm.trans (by decide)⟩
  · have htwice : options [⟨"Connection", "close ,Close"⟩] = ["close".toList, "close".toList] := by
      decide
    have honce : options [⟨"Connection", "close"⟩] = ["close".toList] := by decide
    have hsame : ∀ option, Lists [⟨"Connection", "close ,Close"⟩] option ↔
        Lists [⟨"Connection", "close"⟩] option := by
      intro option
      rw [lists_iff, lists_iff, htwice, honce]
      simp
    obtain ⟨-, heq, -⟩ := keepAlive_by_options .http11 [⟨"Connection", "close ,Close"⟩]
    exact ⟨hsame, heq _ hsame⟩

end Headers

end WireHttp
