import SaveNames.Proofs.Writing

/-!
# Round trips

**What was written is read back, and what was read can be written again.**

* However the writer stopped, a reader finds exactly the placed characters, and no byte behind
  them.
* Whatever a buffer holds, its text fits into the bytes that it was read from (`fits_decode`), so
  it can be written into a buffer of the same length.
-/

namespace SaveNames

/-! ## Writing, then reading -/

/-- A reader finds all the characters that the writer placed, apostrophes in the locale's form,
and nothing of the old bytes or of the padding. The name never ends in a dangling lead byte. -/
theorem decodeChecked_encode (locale : Locale) (padding : Padding) (maxChars : Nat) (text : Text)
    (buffer : Bytes) :
    let written := encode locale padding maxChars text buffer
    let shown := (text.take written.2.chars).map locale.fold
    decodeChecked locale written.1 = .ok shown ∧ decode locale written.1 = shown ∧
      shown.length = written.2.chars := by
  have hcodes := (fits_placed locale maxChars buffer.length text).isSome_codeOf?
  intro written shown
  have hlength : shown.length = written.2.chars := by
    show ((placed locale maxChars buffer.length text).map locale.fold).length = _
    rw [List.length_map, length_placed]
    rfl
  rw [show written.1 = _ from encode_eq locale padding maxChars text buffer]
  exact ⟨decodeChecked_name hcodes _, decode_name hcodes _, hlength⟩

/-- What was written is read back, folded, as far as the writer came. -/
theorem decode_encode (locale : Locale) (padding : Padding) (maxChars : Nat) (text : Text)
    (buffer : Bytes) :
    decode locale (encode locale padding maxChars text buffer).1 =
      (text.take (encode locale padding maxChars text buffer).2.chars).map locale.fold := by
  have hcodes := (fits_placed locale maxChars buffer.length text).isSome_codeOf?
  rw [encode_eq, decode_name hcodes]
  rfl

/-! ## Reading, then writing -/

theorem Locale.Fits.mono {locale : Locale} {room room' : Nat} {text : Text}
    (h : locale.Fits room text) (hle : room ≤ room') : locale.Fits room' text :=
  ⟨h.isSome_codeOf?, Nat.le_trans h.widthOf_le hle⟩

/-- What units show can be written into the bytes that they cover. -/
theorem fits_of_forall₂_shows {locale : Locale} {units : List CodeUnit} {text : Text}
    (h : List.Forall₂ (CodeUnit.Shows locale) units text) : locale.Fits (widthOf units) text := by
  induction h with
  | nil => exact fits_nil
  | @cons unit ch units text hshows _ ih =>
    -- the chosen code is no wider than the unit, so the rest keeps the room that it had
    obtain ⟨code, hcode, hwidth⟩ := exists_codeOf?_of_shows hshows
    rw [fits_cons_iff hcode, widthOf_cons]
    exact ⟨by omega, ih.mono (by omega)⟩

/-- What units show is not changed by folding. -/
theorem map_fold_of_forall₂_shows {locale : Locale} {units : List CodeUnit} {text : Text}
    (h : List.Forall₂ (CodeUnit.Shows locale) units text) : text.map locale.fold = text := by
  induction h with
  | nil => rfl
  | cons hshows _ ih => rw [List.map_cons, fold_of_shows hshows, ih]

variable (locale : Locale) (data : Bytes)

/-- The text of a name can be written into the bytes of the name. -/
theorem fits_decode : locale.Fits (widthOf (nameUnits locale data)) (decode locale data) :=
  fits_of_forall₂_shows (forall₂_shows_nameUnits locale data)

theorem fits_decode_length : locale.Fits data.length (decode locale data) :=
  (fits_decode locale data).mono (widthOf_nameUnits_le locale data)

theorem map_fold_decode : (decode locale data).map locale.fold = decode locale data :=
  map_fold_of_forall₂_shows (forall₂_shows_nameUnits locale data)

theorem length_encodeFresh (padding : Padding) (maxChars length : Nat) (text : Text) :
    (encodeFresh locale padding maxChars length text).1.length = length := by
  rw [encodeFresh, length_encode, length_blankBuffer]

/-- A text that fits stands whole in a fresh buffer, closed by the terminator, and the outcome is
complete. -/
theorem encodeFresh_of_fits {locale : Locale} (padding : Padding) {maxChars length : Nat}
    {text : Text} (h : locale.Fits length text) (hcap : text.length ≤ maxChars) :
    (encodeFresh locale padding maxChars length text).1 =
        bytesOf (locale.unitsOf text) ++
          closeName ((padding.prepare (blankBuffer length)).drop (widthOf (locale.unitsOf text))) ∧
      (encodeFresh locale padding maxChars length text).2.isComplete = true := by
  rw [← length_blankBuffer length] at h
  exact ⟨encode_of_fits padding h hcap, isComplete_encode padding h hcap⟩

/-- A fresh buffer of the same length that holds the same name in the same way. -/
def rewritten (padding : Padding) : Bytes :=
  (encodeFresh locale padding data.length data.length (decode locale data)).1

/-- The text of a name, written into a fresh buffer of the same length, is read back as it was. -/
theorem decode_encodeFresh_decode (padding : Padding) {maxChars : Nat}
    (hcap : (decode locale data).length ≤ maxChars) :
    decode locale (encodeFresh locale padding maxChars data.length (decode locale data)).1 =
      decode locale data := by
  have hfits := fits_decode_length locale data
  rw [(encodeFresh_of_fits padding hfits hcap).1, decode_name hfits.isSome_codeOf?,
    map_fold_decode]

/-- Rewriting a buffer for the second time changes nothing. -/
theorem rewritten_rewritten (padding : Padding) :
    rewritten locale (rewritten locale data padding) padding = rewritten locale data padding := by
  have hlength : (rewritten locale data padding).length = data.length :=
    length_encodeFresh locale padding _ _ _
  have hdecode : decode locale (rewritten locale data padding) = decode locale data :=
    decode_encodeFresh_decode locale data padding (length_decode_le locale data)
  rw [rewritten, hlength, hdecode]
  rfl

/-- The text of any buffer can be written back: completely, into no more bytes than it had, and
with the same text to read. Doing it twice changes nothing more. -/
theorem encodeFresh_decode (padding : Padding) (maxChars : Nat)
    (hcap : (decode locale data).length ≤ maxChars) :
    let text := decode locale data
    let written := encodeFresh locale padding maxChars data.length text
    written.2.isComplete = true ∧
      decode locale written.1 = text ∧
      nameUnits locale written.1 = locale.unitsOf text ∧
      widthOf (locale.unitsOf text) ≤ widthOf (nameUnits locale data) ∧
      (∀ ch ∈ text, (locale.codeOf? ch).isSome = true) ∧
      rewritten locale (rewritten locale data padding) padding = rewritten locale data padding := by
  intro text written
  have hfits := fits_decode_length locale data
  obtain ⟨hbytes, hcomplete⟩ := encodeFresh_of_fits padding hfits hcap
  refine ⟨hcomplete, decode_encodeFresh_decode locale data padding hcap, ?_,
    (fits_decode locale data).widthOf_le, hfits.isSome_codeOf?,
    rewritten_rewritten locale data padding⟩
  rw [show written.1 = _ from hbytes]
  exact nameUnits_name hfits.isSome_codeOf? _

/-- A zero in its second slot, a two-byte character, and a lead byte with nothing behind it. -/
theorem encodeFresh_decode_cut :
    (decode .international [0xEF, 0x0A, 0x5F, 0x01]).length ≤ 2 ∧
      (encodeFresh .international .keep 2 4
        (decode .international [0xEF, 0x0A, 0x5F, 0x01])).2.isComplete = true := by
  have hcap : (decode .international [0xEF, 0x0A, 0x5F, 0x01]).length ≤ 2 := by decide +kernel
  exact ⟨hcap, (encodeFresh_decode .international [0xEF, 0x0A, 0x5F, 0x01] .keep 2 hcap).1⟩

end SaveNames
