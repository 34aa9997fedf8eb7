import Offside.Text.Slice

/-!
Lists of characters as the text they spell: how many bytes they take, and what
a slice between two of their boundaries holds.

A text is read as a list of characters, and its parts are addressed by byte
offsets. The offset after some leading characters is their byte length; it is
always a character boundary (`isValid_byteLength`), and slicing there gives
back the characters in between (`slice_append`).
-/

namespace Offside.Text

/-- The number of bytes that characters take in UTF-8. -/
def byteLength (chars : List Char) : Nat := (String.ofList chars).utf8ByteSize

@[simp] theorem byteLength_nil : byteLength [] = 0 := rfl

@[simp] theorem byteLength_append (chars others : List Char) :
    byteLength (chars ++ others) = byteLength chars + byteLength others := by
  unfold byteLength
  rw [String.ofList_append, String.utf8ByteSize_append]

theorem byteLength_singleton (c : Char) : byteLength [c] = c.utf8Size := by
  unfold byteLength
  rw [← String.singleton_eq_ofList, String.utf8ByteSize_singleton]

@[simp] theorem byteLength_cons (c : Char) (rest : List Char) :
    byteLength (c :: rest) = c.utf8Size + byteLength rest := by
  rw [← byteLength_singleton, ← byteLength_append]
  rfl

/-- A character takes at least one byte. -/
theorem le_byteLength_take {chars : List Char} {count : Nat} (h : count ≤ chars.length) :
    count ≤ byteLength (chars.take count) := by
  induction count with
  | zero => exact Nat.zero_le _
  | succ count ih =>
    have hchar : chars[count]? = some chars[count] := List.getElem?_eq_getElem h
    have hsize := chars[count].utf8Size_pos
    have hbefore := ih (by omega)
    rw [List.take_add_one, hchar, byteLength_append]
    show _ ≤ _ + byteLength [chars[count]]
    rw [byteLength_singleton]
    omega

/-- A slice between two boundaries is the library's extract there. -/
theorem slice_of_isValid {text : String} {start stop : Nat}
    (hstart : (⟨start⟩ : String.Pos.Raw).IsValid text)
    (hstop : (⟨stop⟩ : String.Pos.Raw).IsValid text) (hle : start ≤ stop) :
    slice text start stop = text.extract (text.pos ⟨start⟩ hstart) (text.pos ⟨stop⟩ hstop) := by
  have hfirst : text.pos? ⟨start⟩ = some (text.pos ⟨start⟩ hstart) := by
    simp [String.pos?, String.Slice.pos?, String.pos, hstart]
  have hlast : text.pos? ⟨stop⟩ = some (text.pos ⟨stop⟩ hstop) := by
    simp [String.pos?, String.Slice.pos?, String.pos, hstop]
  unfold slice
  rw [hfirst, hlast]
  exact if_pos hle

/-- Between an offset and itself there is no text. -/
theorem slice_self (text : String) (offset : Nat) : slice text offset offset = "" := by
  unfold slice
  split
  case h_2 => rfl
  case h_1 first last hfirst hlast =>
    obtain rfl : first = last := Option.some.inj (hfirst.symm.trans hlast)
    rw [if_pos (Nat.le_refl offset)]
    apply String.toByteArray_inj.mp
    rw [String.toByteArray_extract]
    exact ByteArray.extract_eq_empty_iff.mpr (Nat.min_le_left _ _)

/-- The end of leading characters is a character boundary. -/
theorem isValid_byteLength (before after : List Char) :
    (⟨byteLength before⟩ : String.Pos.Raw).IsValid (String.ofList (before ++ after)) := by
  rw [String.ofList_append]
  exact String.Pos.Raw.isValid_iff_exists_append.mpr ⟨_, _, rfl, rfl⟩

/-- The middle of three texts in a row is the slice between their boundaries. -/
theorem slice_append (before inside after : List Char) :
    slice (String.ofList (before ++ inside ++ after)) (byteLength before)
      (byteLength before + byteLength inside) = String.ofList inside := by
  have hstart := isValid_byteLength before (inside ++ after)
  have hstop := isValid_byteLength (before ++ inside) after
  rw [← List.append_assoc] at hstart
  rw [byteLength_append] at hstop
  rw [slice_of_isValid hstart hstop (Nat.le_add_right _ _)]
  apply String.toByteArray_inj.mp
  rw [String.toByteArray_extract]
  simp only [String.offset_pos]
  rw [List.append_assoc, String.ofList_append, String.ofList_append, String.toByteArray_append,
    String.toByteArray_append]
  exact (ByteArray.extract_append_size_add' (i := 0) (String.size_toByteArray ..).symm).trans
    (ByteArray.extract_append_eq_left (String.size_toByteArray ..).symm)

/-- The text between two boundaries. -/
theorem slice_take (chars : List Char) {first last : Nat} (hle : first ≤ last) :
    slice (String.ofList chars) (byteLength (chars.take first)) (byteLength (chars.take last))
      = String.ofList ((chars.drop first).take (last - first)) := by
  have hfirst : chars.take first ++ (chars.drop first).take (last - first) = chars.take last := by
    rw [← List.take_add, Nat.add_sub_cancel' hle]
  have hslice := slice_append (chars.take first) ((chars.drop first).take (last - first))
    (chars.drop last)
  rw [← byteLength_append, hfirst, List.take_append_drop] at hslice
  exact hslice

end Offside.Text
