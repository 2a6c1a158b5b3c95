/-
Text on the wire. A text is written as UTF-8, and bytes are read as text
only if they are UTF-8 in the strict sense: no overlong form, no
surrogate, nothing above U+10FFFF. The two directions are inverse to
each other, so a text has one written form.
-/
import WireHttp.Bytes

namespace WireHttp.Text.Utf8

/-- The bytes of a list of characters. -/
def encodeChars (cs : List Char) : Bytes :=
  cs.flatMap String.utf8EncodeChar

/-- The bytes of a text. -/
def encode (s : String) : Bytes :=
  encodeChars s.toList

/-- The text that `b` is the written form of, if it is one. -/
def decode? (b : Bytes) : Option String :=
  String.fromUTF8? b.toByteArray

@[simp] theorem encodeChars_nil : encodeChars [] = [] := rfl

@[simp] theorem encodeChars_cons (c : Char) (cs : List Char) :
    encodeChars (c :: cs) = String.utf8EncodeChar c ++ encodeChars cs := by
  simp [encodeChars]

@[simp] theorem encodeChars_append (cs ds : List Char) :
    encodeChars (cs ++ ds) = encodeChars cs ++ encodeChars ds := by
  simp [encodeChars]

@[simp] theorem encode_append (s t : String) : encode (s ++ t) = encode s ++ encode t := by
  simp [encode]

theorem toByteArray_encode (s : String) : (encode s).toByteArray = s.toByteArray := by
  rw [← String.utf8Encode_toList]; rfl

/-- What was written is read back. -/
@[simp] theorem decode?_encode (s : String) : decode? (encode s) = some s := by
  have h := s.isValidUTF8
  simp only [decode?, String.fromUTF8?, toByteArray_encode, h, dif_pos]
  rfl

/-- Only what is written for a text reads as that text. -/
theorem encode_of_decode? {b : Bytes} {s : String} (h : decode? b = some s) : encode s = b := by
  simp only [decode?, String.fromUTF8?] at h
  split at h
  · rename_i hv
    have hs : s.toByteArray = b.toByteArray := by
      rw [← Option.some.inj h]; rfl
    have := toByteArray_encode s
    rw [hs] at this
    simpa using congrArg (fun a : ByteArray => a.data.toList) this
  · cases h

theorem decode?_eq_some_iff {b : Bytes} {s : String} : decode? b = some s ↔ b = encode s :=
  ⟨fun h => (encode_of_decode? h).symm, fun h => h ▸ decode?_encode s⟩

end WireHttp.Text.Utf8
