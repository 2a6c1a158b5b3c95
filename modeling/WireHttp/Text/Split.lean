/-
Cutting a text: once, at the first separator, or into lines. A line ends
with a carriage return followed by a line feed; either of the two on its
own is a character of the line it stands in.
-/

namespace WireHttp.Text

/-- What stands before and after the first separator, if there is one. -/
def cut? (sep : Char) (cs : List Char) : Option (List Char × List Char) :=
  match cs.dropWhile (· != sep) with
  | [] => none
  | _ :: after => some (cs.takeWhile (· != sep), after)

/-- The lines of a text of which the characters of `line`, last one
first, have already been read. -/
def linesAfter (line : List Char) : List Char → List (List Char)
  | [] => [line.reverse]
  | '\r' :: '\n' :: cs => line.reverse :: linesAfter [] cs
  | c :: cs => linesAfter (c :: line) cs

/-- The lines of a text; a text without a line end is one line. -/
def lines (cs : List Char) : List (List Char) :=
  linesAfter [] cs

/-- A cut takes the separator out, and takes the first one. -/
theorem cut?_eq_some_iff {sep : Char} {cs before after : List Char} :
    cut? sep cs = some (before, after) ↔ cs = before ++ sep :: after ∧ sep ∉ before := by
  constructor
  · intro h
    unfold cut? at h
    split at h
    · cases h
    · next c rest hd =>
      obtain ⟨rfl, rfl⟩ := Prod.mk.inj (Option.some.inj h)
      have hc : c = sep := by
        have := List.head?_dropWhile_not (· != sep) cs
        simpa [hd] using this
      refine ⟨?_, fun hm => ?_⟩
      · subst hc
        rw [← hd, List.takeWhile_append_dropWhile]
      · simpa using List.all_eq_true.1 (List.all_takeWhile (p := (· != sep)) (l := cs)) _ hm
  · rintro ⟨rfl, hn⟩
    have hb : ∀ c ∈ before, (c != sep) = true := fun c hc => by
      simp only [bne_iff_ne]; rintro rfl; exact hn hc
    have hd : (before ++ sep :: after).dropWhile (· != sep) = sep :: after := by
      rw [List.dropWhile_append_of_pos hb]; simp
    have ht : (before ++ sep :: after).takeWhile (· != sep) = before := by
      rw [List.takeWhile_append_of_pos hb]; simp
    simp [cut?, hd, ht]

/-- The text that a list of lines was read from. -/
def joinLines : List (List Char) → List Char
  | [] => []
  | [line] => line
  | line :: next :: rest => line ++ '\r' :: '\n' :: joinLines (next :: rest)

theorem linesAfter_ne_nil (line cs : List Char) : linesAfter line cs ≠ [] := by
  fun_induction linesAfter line cs <;> simp_all

/-- No character is lost between the lines. -/
theorem joinLines_linesAfter (line cs : List Char) :
    joinLines (linesAfter line cs) = line.reverse ++ cs := by
  fun_induction linesAfter line cs with
  | case1 => simp [joinLines]
  | case2 line cs ih =>
    cases h : linesAfter [] cs with
    | nil => exact absurd h (linesAfter_ne_nil _ _)
    | cons next rest => simp [joinLines, ← h, ih]
  | case3 line c cs _ ih => simp [ih]

@[simp] theorem joinLines_lines (cs : List Char) : joinLines (lines cs) = cs := by
  simp [lines, joinLines_linesAfter]

end WireHttp.Text
