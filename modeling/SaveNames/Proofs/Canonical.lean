import SaveNames.Proofs.DecimalPoint
import SaveNames.Proofs.RoundTrip

/-!
# Canonical buffers

A buffer is **canonical** if its name could have been left by a writer: every character has the
code that a writer chooses for it, and the name ends at a terminator or at the end of the
buffer. What stands in the trash does not matter.

Blank buffers are canonical, whatever is written leaves a canonical buffer behind, and replacing
decimal points keeps a buffer canonical. Writing the text of a canonical buffer over itself
changes nothing (`IsCanonical.encode_keep`).
-/

namespace SaveNames

/-- The name in the buffer is one that a writer leaves. -/
def IsCanonical (locale : Locale) (data : Bytes) : Prop :=
  ∃ text rest, (∀ ch ∈ text, (locale.codeOf? ch).isSome = true) ∧
    data = bytesOf (locale.unitsOf text) ++ closeName rest

variable {locale : Locale} {data : Bytes}

/-! ## Where canonical buffers come from -/

/-- A blank buffer is canonical: it is the empty name, written. -/
theorem isCanonical_blankBuffer (locale : Locale) (length : Nat) :
    IsCanonical locale (blankBuffer length) := by
  refine ⟨[], blankBuffer length, by simp, ?_⟩
  exact (closeName_blankBuffer length).symm

/-- Every written buffer is canonical. -/
theorem isCanonical_encode (locale : Locale) (padding : Padding) (maxChars : Nat) (text : Text)
    (buffer : Bytes) : IsCanonical locale (encode locale padding maxChars text buffer).1 :=
  ⟨_, _, (fits_placed locale maxChars buffer.length text).isSome_codeOf?,
    encode_eq locale padding maxChars text buffer⟩

/-- A canonical buffer stays canonical when its decimal points are replaced. -/
theorem isCanonical_replaceDecimalPoints (korean : Bool) (h : IsCanonical locale data) :
    IsCanonical locale (replaceDecimalPoints locale korean data).1 := by
  by_cases hreplace : locale = .international ∧ korean = false
  · obtain ⟨rfl, rfl⟩ := hreplace
    obtain ⟨text, rest, hcodes, rfl⟩ := h
    rw [replaceDecimalPoints_name hcodes]
    exact ⟨_, rest, isSome_codeOf?_map_withPeriod_iff.mpr hcodes, rfl⟩
  · rw [replaceDecimalPoints_of_ne hreplace]
    exact h

/-! ## Reading and rewriting canonical buffers -/

namespace IsCanonical

/-- In a canonical buffer no lead byte dangles. -/
theorem decodeChecked_eq (h : IsCanonical locale data) :
    decodeChecked locale data = .ok (decode locale data) := by
  obtain ⟨text, rest, hcodes, rfl⟩ := h
  rw [decodeChecked_name hcodes, decode_name hcodes]

/-- Writing the text of a canonical buffer over itself changes no byte. -/
theorem encode_keep (h : IsCanonical locale data) :
    (encode locale .keep data.length (decode locale data) data).1 = data := by
  -- any text fits where it was read; in a canonical buffer it also has the codes that stood there
  rw [encode_of_fits .keep (fits_decode_length locale data) (length_decode_le locale data)]
  obtain ⟨text, rest, hcodes, rfl⟩ := h
  rw [decode_name hcodes, unitsOf_map_fold]
  show _ ++ closeName ((bytesOf _ ++ closeName rest).drop (bytesOf _).length) = _
  rw [List.drop_left, closeName_closeName]

/-- In front of the trash stand the codes of the name, and a terminator if a byte is left. -/
theorem take_trashStart (h : IsCanonical locale data) :
    data.take (trashStart locale data) =
      terminated data.length (bytesOf (locale.unitsOf (decode locale data))) := by
  obtain ⟨text, rest, hcodes, rfl⟩ := h
  rw [trashStart_name hcodes, decode_name hcodes, unitsOf_map_fold, terminated, widthOf,
    List.length_append, length_closeName, List.take_length_add_append, List.take_length_add_append]
  -- the terminator is there exactly if the codes leave a byte
  cases rest with
  | nil => rfl
  | cons first rest =>
    rw [closeName, List.length_cons, Nat.min_eq_left (by omega), List.take_succ_cons,
      List.take_zero, List.take_succ_cons, List.take_nil]

end IsCanonical
end SaveNames
