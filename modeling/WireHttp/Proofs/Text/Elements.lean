/-
The elements of a comma-separated text. A piece of such a text is what
stands between two commas, or between a comma and an end of the text, and
holds none itself (`mem_splitOn_iff`). An element is a piece without the
white space about it, so a text lists an element just if it can be taken
apart into something up to a comma, white space, the element, white space,
and something from a comma on (`mem_elements_iff`).

Two changes of the text are followed through the split. Texts with commas
between them are split into the pieces of each (`splitOn_intercalate`);
here the texts may hold commas of their own. And the case of letters can
be folded before the split or after it (`elements_foldCase`), since no
capital is a comma or white space, and none becomes one.
-/
import WireHttp.Text.Caseless
import WireHttp.Proofs.Text.Numeral

namespace WireHttp.Text

-- ================================================ pieces between commas

/-- What stands before a piece: nothing, or a text up to a comma. -/
def BeforePiece (front : List Char) : Prop :=
  front = [] ∨ [','] <:+ front

/-- What stands after a piece: nothing, or a text from a comma on. -/
def AfterPiece (back : List Char) : Prop :=
  back = [] ∨ [','] <+: back

theorem mem_splitOn_of_between {front piece back : List Char} (hfront : BeforePiece front)
    (hpiece : ',' ∉ piece) (hback : AfterPiece back) :
    piece ∈ (front ++ (piece ++ back)).splitOn ',' := by
  have hrest : piece ∈ (piece ++ back).splitOn ',' := by
    rcases hback with rfl | ⟨back, rfl⟩
    · rw [List.append_nil, List.splitOn_eq_singleton hpiece]
      exact List.mem_singleton_self piece
    · rw [List.singleton_append, List.splitOn_append_cons_self, List.splitOn_eq_singleton hpiece]
      exact List.mem_cons_self
  rcases hfront with rfl | ⟨front, rfl⟩
  · exact hrest
  · rw [List.append_assoc, List.singleton_append, List.splitOn_append_cons_self]
    exact List.mem_append_right _ hrest

theorem between_of_mem_splitOn {cs piece : List Char} (h : piece ∈ cs.splitOn ',') :
    ',' ∉ piece ∧
      ∃ front back, BeforePiece front ∧ AfterPiece back ∧ cs = front ++ (piece ++ back) := by
  -- one comma is passed at a time, from the front
  induction hn : cs.length using Nat.strongRecOn generalizing cs with
  | _ n ih =>
      by_cases hcomma : ',' ∈ cs
      · obtain ⟨first, rest, rfl, hfirst⟩ := List.eq_append_cons_of_mem hcomma
        rw [List.splitOn_append_cons_self, List.splitOn_eq_singleton hfirst,
          List.singleton_append] at h
        rcases List.mem_cons.1 h with rfl | h
        · exact ⟨hfirst, [], ',' :: rest, Or.inl rfl, Or.inr ⟨rest, rfl⟩, rfl⟩
        · have hshorter : rest.length < n := by
            rw [← hn, List.length_append, List.length_cons]
            omega
          obtain ⟨hpiece, front, back, hfront, hback, rfl⟩ := ih _ hshorter h rfl
          refine ⟨hpiece, first ++ ',' :: front, back, Or.inr ?_, hback, by simp⟩
          rcases hfront with rfl | hfront
          · exact List.suffix_append first [',']
          · exact (hfront.trans (List.suffix_cons ',' front)).trans (List.suffix_append _ _)
      · rw [List.splitOn_eq_singleton hcomma, List.mem_singleton] at h
        subst h
        exact ⟨hcomma, [], [], Or.inl rfl, Or.inl rfl, (List.append_nil piece).symm⟩

/-- The pieces of a text are the parts without a comma between two commas,
or between a comma and an end of the text. -/
theorem mem_splitOn_iff {cs piece : List Char} :
    piece ∈ cs.splitOn ',' ↔
      ',' ∉ piece ∧
        ∃ front back, BeforePiece front ∧ AfterPiece back ∧ cs = front ++ (piece ++ back) := by
  constructor
  · exact between_of_mem_splitOn
  · rintro ⟨hpiece, front, back, hfront, hback, rfl⟩
    exact mem_splitOn_of_between hfront hpiece hback

/-- Texts with commas between them are split into the pieces of each. -/
theorem splitOn_intercalate {texts : List (List Char)} (h : texts ≠ []) :
    ([','].intercalate texts).splitOn ',' = texts.flatMap (·.splitOn ',') := by
  induction texts with
  | nil => exact absurd rfl h
  | cons first texts ih =>
      cases texts with
      | nil => simp
      | cons second texts =>
          rw [List.intercalate_cons_cons, List.append_assoc, List.singleton_append,
            List.splitOn_append_cons_self, ih nofun, ← List.flatMap_cons]

-- ============================================================= elements

/-- The pieces of a comma-separated text, without white space about them. -/
def elements (cs : List Char) : List (List Char) :=
  (cs.splitOn ',').map trim

/-- The text lists this element: it stands, with at most white space about
it, between two commas or between a comma and an end of the text. The
element itself holds no comma, and neither begins nor ends with white
space. -/
def Lists (cs element : List Char) : Prop :=
  ',' ∉ element ∧ (∀ c ∈ element.head?, isBlank c = false) ∧
    (∀ c ∈ element.getLast?, isBlank c = false) ∧
    ∃ front before after back, BeforePiece front ∧ AfterPiece back ∧
      (∀ c ∈ before, isBlank c = true) ∧ (∀ c ∈ after, isBlank c = true) ∧
      cs = front ++ (before ++ (element ++ after) ++ back)

theorem mem_elements_iff {cs element : List Char} : element ∈ elements cs ↔ Lists cs element := by
  have hcomma {blanks : List Char} (h : ∀ c ∈ blanks, isBlank c = true) : ',' ∉ blanks :=
    fun hc => absurd (h ',' hc) (by decide)
  rw [elements, List.mem_map]
  constructor
  · rintro ⟨piece, hpiece, htrim⟩
    obtain ⟨hnone, front, back, hfront, hback, rfl⟩ := mem_splitOn_iff.1 hpiece
    obtain ⟨hhead, hlast, before, after, hbefore, hafter, rfl⟩ := trimBy_eq_iff.1 htrim
    exact ⟨fun hc => hnone (List.mem_append_right _ (List.mem_append_left _ hc)), hhead, hlast,
      front, before, after, back, hfront, hback, hbefore, hafter, rfl⟩
  · rintro ⟨hnone, hhead, hlast, front, before, after, back, hfront, hback, hbefore, hafter, rfl⟩
    refine ⟨before ++ (element ++ after), mem_splitOn_of_between hfront ?_ hback,
      trimBy_eq_iff.2 ⟨hhead, hlast, before, after, hbefore, hafter, rfl⟩⟩
    simp only [List.mem_append, not_or]
    exact ⟨hcomma hbefore, hnone, hcomma hafter⟩

theorem elements_intercalate {texts : List (List Char)} (h : texts ≠ []) :
    elements ([','].intercalate texts) = texts.flatMap elements := by
  rw [elements, splitOn_intercalate h, List.map_flatMap]
  rfl

-- ================================================== the case of letters

/-- Only a capital is made small, and becomes the letter 32 places on. -/
theorem toLower_cases (c : Char) :
    c.toLower = c ∨ 65 ≤ c.toNat ∧ c.toNat ≤ 90 ∧ c.toLower.toNat = c.toNat + 32 := by
  unfold Char.toLower
  split
  · next h =>
    have hlow : 65 ≤ c.toNat := h.1
    have hhigh : c.toNat ≤ 90 := h.2
    have hplus : (c.val + 32).toNat = c.toNat + 32 := by
      rw [UInt32.toNat_add]
      exact Nat.mod_eq_of_lt (Nat.lt_of_le_of_lt (Nat.add_le_add_right hhigh 32) (by decide))
    exact Or.inr ⟨hlow, hhigh, hplus⟩
  · exact Or.inl rfl

@[simp] theorem isBlank_toLower (c : Char) : isBlank c.toLower = isBlank c := by
  rcases toLower_cases c with h | ⟨hlow, hhigh, h⟩
  · rw [h]
  · rw [isBlank_of_printed (c := c) (by omega) (by omega),
      isBlank_of_printed (by omega) (by omega)]

@[simp] theorem toLower_eq_comma_iff {c : Char} : c.toLower = ',' ↔ c = ',' := by
  rcases toLower_cases c with h | ⟨hlow, -, h⟩
  · rw [h]
  · have hcomma : (',' : Char).toNat = 44 := rfl
    constructor
    · intro hc
      rw [hc] at h
      omega
    · rintro rfl
      omega

theorem splitOn_foldCase (cs : List Char) :
    (foldCase cs).splitOn ',' = (cs.splitOn ',').map foldCase := by
  induction cs with
  | nil => rfl
  | cons c cs ih =>
      rw [foldCase, List.map_cons, ← foldCase, List.splitOn_cons_eq_if_modifyHead,
        List.splitOn_cons_eq_if_modifyHead, ih]
      by_cases hc : c = ','
      · subst hc
        rfl
      · rw [if_neg (by simpa using hc), if_neg (by simpa using hc)]
        cases cs.splitOn ',' with
        | nil => rfl
        | cons first pieces => rfl

theorem trim_foldCase (cs : List Char) : trim (foldCase cs) = foldCase (trim cs) := by
  have hblank : isBlank ∘ Char.toLower = isBlank := funext isBlank_toLower
  simp only [trim, trimBy, foldCase, List.dropWhile_map, hblank, ← List.map_reverse]

/-- The elements of a text in small letters are its elements in small
letters. -/
theorem elements_foldCase (cs : List Char) :
    elements (foldCase cs) = (elements cs).map foldCase := by
  rw [elements, splitOn_foldCase, elements, List.map_map, List.map_map]
  exact List.map_congr_left fun piece _ => trim_foldCase piece

end WireHttp.Text
