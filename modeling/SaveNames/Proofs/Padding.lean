import SaveNames.Proofs.RoundTrip

/-!
# What a padding leaves behind a name

The trash of a written buffer is the end of the prepared buffer (`trash_encode`), so under a
filling padding it is one byte repeated, and nothing of the old buffer is left but its length
(`encode_eq_encodeFresh`). A buffer that was written like this comes out the same when its text
is written again (`encodeFresh_decode_encodeFresh`).
-/

namespace SaveNames

variable {locale : Locale} {padding : Padding} {byte : UInt8}

/-- The trash of a written buffer is what the padding has left there. -/
theorem trash_encode (locale : Locale) (padding : Padding) (maxChars : Nat) (text : Text)
    (buffer : Bytes) :
    trash locale (encode locale padding maxChars text buffer).1 =
      (padding.prepare buffer).drop
        (widthOf (locale.unitsOf (placed locale maxChars buffer.length text)) + 1) := by
  have hcodes := (fits_placed locale maxChars buffer.length text).isSome_codeOf?
  rw [encode_eq, trash_name hcodes, List.tail_drop]

/-! ## Filling paddings -/

theorem prepare_of_fill (h : padding.fill? = some byte) (buffer : Bytes) :
    padding.prepare buffer = List.replicate buffer.length byte := by
  rw [Padding.prepare, h]

/-- A filling padding leaves nothing of the old bytes. -/
theorem encode_eq_encodeFresh (h : padding.fill? = some byte) (locale : Locale) (maxChars : Nat)
    (text : Text) (buffer : Bytes) :
    encode locale padding maxChars text buffer =
      encodeFresh locale padding maxChars buffer.length text := by
  simp only [encodeFresh, encode, prepare_of_fill h, length_blankBuffer]

/-- The trash of a fresh buffer is the fill byte, from behind the terminator to the end. -/
theorem trash_encodeFresh (h : padding.fill? = some byte) (locale : Locale)
    (maxChars length : Nat) (text : Text) :
    trash locale (encodeFresh locale padding maxChars length text).1 =
      List.replicate
        (length - (widthOf (locale.unitsOf (placed locale maxChars length text)) + 1)) byte := by
  rw [encodeFresh, trash_encode, prepare_of_fill h, List.drop_replicate, length_blankBuffer]

/-- Paddings differ in the trash only. -/
theorem encodeFresh_eq_of_trash_eq_nil {padding' : Padding} {maxChars length : Nat} {text : Text}
    (h : trash locale (encodeFresh locale padding maxChars length text).1 = []) :
    (encodeFresh locale padding maxChars length text).1 =
      (encodeFresh locale padding' maxChars length text).1 := by
  -- without trash there is one byte behind the codes at most, and the terminator takes its place
  have hclose : ∀ rest rest' : Bytes, rest.length = rest'.length → rest.length ≤ 1 →
      closeName rest = closeName rest' := by
    intro rest rest' hlength hle
    match rest, rest', hlength with
    | [], [], _ => rfl
    | [_], [_], _ => rfl
  rw [encodeFresh, trash_encode, List.drop_eq_nil_iff, Padding.length_prepare] at h
  rw [encodeFresh, encodeFresh, encode_eq, encode_eq]
  refine congrArg _ (hclose _ _ ?_ ?_)
  · simp only [List.length_drop, Padding.length_prepare]
  · rw [List.length_drop, Padding.length_prepare]
    omega

/-! ## Writing a name again -/

/-- A fresh buffer shows the placed characters, folded, whatever its padding. -/
theorem decode_encodeFresh (locale : Locale) (padding : Padding) (maxChars length : Nat)
    (text : Text) :
    decode locale (encodeFresh locale padding maxChars length text).1 =
      (placed locale maxChars length text).map locale.fold := by
  rw [encodeFresh, decode_encode, placed]
  simp only [encode, length_blankBuffer]

/-- A written name comes out the same when its text is written again under its cap. -/
theorem encodeFresh_decode_encodeFresh (locale : Locale) (padding : Padding)
    (maxChars length : Nat) (text : Text) :
    (encodeFresh locale padding maxChars length
        (decode locale (encodeFresh locale padding maxChars length text).1)).1 =
      (encodeFresh locale padding maxChars length text).1 := by
  -- what is read back has the codes of the placed part, so it fits as that did
  have hfits : locale.Fits length ((placed locale maxChars length text).map locale.fold) :=
    fits_map_fold_iff.mpr (fits_placed locale maxChars length text)
  have hcap : ((placed locale maxChars length text).map locale.fold).length ≤ maxChars := by
    rw [List.length_map]
    exact length_placed_le locale maxChars length text
  rw [decode_encodeFresh, (encodeFresh_of_fits padding hfits hcap).1, unitsOf_map_fold,
    encodeFresh, encode_eq, length_blankBuffer]

end SaveNames
