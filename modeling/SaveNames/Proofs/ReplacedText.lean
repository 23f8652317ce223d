import SaveNames.Proofs.DecimalPoint
import SaveNames.Proofs.RoundTrip
import SaveNames.Proofs.WrittenBytes

/-!
# What replacing decimal points does to the text

The replacement goes over the buffer a second time, without the reader and with bytes instead of
characters. Still a reader finds in the new buffer just what he found in the old one, **with a
period for each decimal point** (`reading_replaceDecimalPoints`). Two facts make this true:

* the byte of the decimal point is the only unit that shows one (`shows_point_iff`), so bytes and
  characters are counted alike;
* point and period are single bytes both, so the new name takes the place of the old one exactly,
  and what stopped the reader behind the one stops it behind the other (`stop?_withName`).

Behind a writer, the replacement therefore leaves what the writer would have left if it had been
given periods to write (`replaceDecimalPoints_behind_encode`).
-/

namespace SaveNames

/-! ## Another name in a buffer -/

/-- The buffer with the bytes of the units in the place of its name. -/
def withName (locale : Locale) (data : Bytes) (units : List CodeUnit) : Bytes :=
  bytesOf units ++ data.drop (widthOf (nameUnits locale data))

variable {locale : Locale} {units : List CodeUnit} {text : Text}

theorem withName_nameUnits (locale : Locale) (data : Bytes) :
    withName locale data (nameUnits locale data) = data :=
  bytesOf_nameUnits_append_drop locale data

/-- A reader that starts behind a name finds what it would have found there in the whole buffer:
the same units, no name in front of them, and the same unit that stops it. -/
theorem reading_drop_widthOf_nameUnits (locale : Locale) (data : Bytes) :
    let rest := data.drop (widthOf (nameUnits locale data))
    scan locale rest = (scan locale data).dropWhile (·.isReadable locale) ∧
      nameUnits locale rest = [] ∧ stop? locale rest = stop? locale data := by
  intro rest
  have hshows := forall₂_shows_nameUnits locale data
  have hscan := scan_append hshows rest
  have hname := nameUnits_append hshows rest
  have hstop := stop?_append hshows rest
  rw [bytesOf_nameUnits_append_drop] at hscan hname hstop
  have hsplit := scan_eq_nameUnits_append locale data
  exact ⟨List.append_cancel_left (hscan.symm.trans hsplit), List.self_eq_append_right.mp hname,
    hstop.symm⟩

section WithName

variable (h : List.Forall₂ (CodeUnit.Shows locale) units text) (data : Bytes)
include h

/-- The units are those of the new name and then those that stood behind the old one. -/
theorem scan_withName :
    scan locale (withName locale data units) =
      units ++ (scan locale data).dropWhile (·.isReadable locale) := by
  rw [withName, scan_append h, (reading_drop_widthOf_nameUnits locale data).1]

/-- The name of the new buffer is the new name and no more. -/
theorem nameUnits_withName : nameUnits locale (withName locale data units) = units := by
  rw [withName, nameUnits_append h, (reading_drop_widthOf_nameUnits locale data).2.1,
    List.append_nil]

theorem decode_withName : decode locale (withName locale data units) = text := by
  rw [decode, nameUnits_withName h, filterMap_char?_of_forall₂_shows h]

/-- The same unit stops a reader behind the new name. -/
theorem stop?_withName : stop? locale (withName locale data units) = stop? locale data := by
  rw [withName, stop?_append h, (reading_drop_widthOf_nameUnits locale data).2.2]

variable (hwidth : widthOf units = widthOf (nameUnits locale data))
include hwidth

/-- With a new name of the same width the checked reader answers as before, but for the text. -/
theorem decodeChecked_withName :
    decodeChecked locale (withName locale data units) =
      (decodeChecked locale data).map fun _ => text := by
  rw [decodeChecked, decodeChecked, stop?_withName h, nameUnits_withName h, decode_withName h,
    hwidth]
  split <;> rfl

/-- With a new name of the same width the trash starts where it did. -/
theorem trashStart_withName :
    trashStart locale (withName locale data units) = trashStart locale data := by
  rw [trashStart, trashStart, stop?_withName h, nameUnits_withName h, hwidth]

end WithName

/-! ## The unit of the decimal point -/

theorem shows_point : (CodeUnit.single 0xAF).Shows .international '・' :=
  shows_unit_of_codeOf? codeOf?_point

theorem shows_period : (CodeUnit.single 0xAD).Shows .international '.' :=
  shows_unit_of_codeOf? codeOf?_period

variable {unit : CodeUnit} {ch : Char}

/-- The byte of the decimal point is the only unit that shows one. No other byte does, and there
is none on the two-byte pages. -/
theorem shows_point_iff : unit.Shows .international '・' ↔ unit = .single 0xAF := by
  constructor
  · intro h
    cases unit with
    | single byte =>
      have hlookup := (CodeUnit.shows_single_iff.mp h).2
      have hbyte : byte.toNat = (0xAF : UInt8).toNat :=
        Charset.eq_of_lookup_international_point hlookup
      rw [UInt8.toNat_inj.mp hbyte]
    | double lead trail =>
      have hdouble := CodeUnit.shows_double_iff.mp h
      have hpositive := (Charset.toNat_lt_of_isLead hdouble.1).1
      exact absurd hdouble.2 (Charset.lookup_extended_ne_point (by omega))
    | dangling lead => exact absurd h CodeUnit.not_shows_dangling
  · intro h
    rw [h]
    exact shows_point

/-- A unit that shows a character is the byte of the decimal point if and only if this is the
character. -/
theorem CodeUnit.Shows.eq_point_iff (h : unit.Shows .international ch) :
    unit = .single 0xAF ↔ ch = '・' := by
  constructor
  · intro hunit
    have hchar : unit.char? .international = some '・' := by
      rw [hunit]
      exact shows_point.2
    exact Option.some.inj (h.2.symm.trans hchar)
  · intro hch
    rw [hch] at h
    exact shows_point_iff.mp h

/-- The replaced unit shows the replaced character. -/
theorem CodeUnit.Shows.replaceSingle (h : unit.Shows .international ch) :
    (unit.replaceSingle 0xAF 0xAD).Shows .international (withPeriod ch) := by
  unfold CodeUnit.replaceSingle withPeriod
  by_cases hch : ch = '・'
  · rw [if_pos (h.eq_point_iff.mpr hch), if_pos hch]
    exact shows_period
  · rw [if_neg (mt h.eq_point_iff.mp hch), if_neg hch]
    exact h

/-- Units with the byte replaced show their text with periods for the decimal points. -/
theorem forall₂_shows_map_replaceSingle
    (h : List.Forall₂ (CodeUnit.Shows .international) units text) :
    List.Forall₂ (CodeUnit.Shows .international)
      (units.map (CodeUnit.replaceSingle 0xAF 0xAD)) (text.map withPeriod) := by
  rw [List.forall₂_map_left_iff, List.forall₂_map_right_iff]
  exact h.imp fun _ _ hshows => hshows.replaceSingle

/-- There are as many bytes of decimal points as decimal points. -/
theorem count_point_of_forall₂_shows
    (h : List.Forall₂ (CodeUnit.Shows .international) units text) :
    units.count (.single 0xAF) = text.count '・' := by
  induction h with
  | nil => rfl
  | cons hshows _ ih => simp only [List.count_cons, ih, beq_iff_eq, hshows.eq_point_iff]

/-! ## The text afterwards -/

section Replaced

variable (data : Bytes)

/-- The units of the name with the decimal points replaced. -/
def replacedUnits : List CodeUnit :=
  (nameUnits .international data).map (CodeUnit.replaceSingle 0xAF 0xAD)

/-- Replacing puts the replaced units in the place of the name and touches nothing else. -/
theorem replaceDecimalPoints_eq_withName :
    (replaceDecimalPoints .international false data).1 =
      withName .international data (replacedUnits data) :=
  congrArg Prod.fst (replaceDecimalPoints_eq data)

/-- The replaced units show the text of the name with periods for the decimal points. -/
theorem forall₂_shows_replacedUnits :
    List.Forall₂ (CodeUnit.Shows .international) (replacedUnits data)
      ((decode .international data).map withPeriod) :=
  forall₂_shows_map_replaceSingle (forall₂_shows_nameUnits .international data)

theorem widthOf_replacedUnits :
    widthOf (replacedUnits data) = widthOf (nameUnits .international data) :=
  widthOf_map_replaceSingle ..

/-- The name afterwards is the one from before with periods for the decimal points. -/
theorem decode_replaceDecimalPoints :
    decode .international (replaceDecimalPoints .international false data).1 =
      (decode .international data).map withPeriod := by
  rw [replaceDecimalPoints_eq_withName, decode_withName (forall₂_shows_replacedUnits data)]

/-- The number that is returned is that of the decimal points that the name showed. -/
theorem count_replaceDecimalPoints :
    (replaceDecimalPoints .international false data).2 =
      (decode .international data).count '・' := by
  rw [replaceDecimalPoints_eq]
  exact count_point_of_forall₂_shows (forall₂_shows_nameUnits .international data)

/-- The checked reader accepts the new buffer if it accepted the old one, and else it finds the
same lead byte in the same place. -/
theorem decodeChecked_replaceDecimalPoints :
    decodeChecked .international (replaceDecimalPoints .international false data).1 =
      (decodeChecked .international data).map (List.map withPeriod) := by
  rw [replaceDecimalPoints_eq_withName,
    decodeChecked_withName (forall₂_shows_replacedUnits data) data (widthOf_replacedUnits data)]
  -- a text that the checked reader accepts is the one that the other reader finds
  unfold decodeChecked
  split <;> rfl

theorem trashStart_replaceDecimalPoints :
    trashStart .international (replaceDecimalPoints .international false data).1 =
      trashStart .international data := by
  rw [replaceDecimalPoints_eq_withName,
    trashStart_withName (forall₂_shows_replacedUnits data) data (widthOf_replacedUnits data)]

end Replaced

/-- What replacing decimal points means for the text. In an international name that is not Korean,
every decimal point becomes a period and nothing else is read differently; so many were replaced as
the text had; and the checked reader refuses the new buffer just where it refused the old one.
Elsewhere nothing is done. -/
theorem reading_replaceDecimalPoints (locale : Locale) (korean : Bool) (data : Bytes) :
    let replaced := replaceDecimalPoints locale korean data
    (locale = .international ∧ korean = false →
      decode locale replaced.1 = (decode locale data).map withPeriod ∧
        replaced.2 = (decode locale data).count '・' ∧
        decodeChecked locale replaced.1 =
          (decodeChecked locale data).map (List.map withPeriod)) ∧
      (¬(locale = .international ∧ korean = false) → replaced = (data, 0)) := by
  intro replaced
  constructor
  · intro hreplace
    obtain ⟨rfl, rfl⟩ := hreplace
    exact ⟨decode_replaceDecimalPoints data, count_replaceDecimalPoints data,
      decodeChecked_replaceDecimalPoints data⟩
  · intro hkeep
    exact replaceDecimalPoints_of_ne hkeep data

/-- A trail byte, two decimal points, and a lead byte that the end of the buffer has cut. -/
example : replaceDecimalPoints .international false [0x01, 0xAF, 0xAF, 0xBB, 0xAF, 0x01] =
      ([0x01, 0xAF, 0xAD, 0xBB, 0xAD, 0x01], 2) ∧
    decodeChecked .international [0x01, 0xAF, 0xAD, 0xBB, 0xAD, 0x01] =
      .error (.danglingLead 5) := by decide +kernel

/-! ## Behind a writer -/

/-- Reading a text back changes none of its decimal points. -/
theorem count_point_map_fold (text : Text) :
    (text.map Locale.international.fold).count '・' = text.count '・' := by
  induction text with
  | nil => rfl
  | cons ch text ih => simp only [List.map_cons, List.count_cons, ih, beq_iff_eq, fold_eq_point_iff]

section Encode

variable (padding : Padding) (maxChars : Nat) (text : Text) (buffer : Bytes)

/-- Replacing what was written leaves what would be written with periods in the text. -/
theorem fst_replaceDecimalPoints_encode :
    (replaceDecimalPoints .international false
        (encode .international padding maxChars text buffer).1).1 =
      (encode .international padding maxChars (text.map withPeriod) buffer).1 :=
  replaceDecimalPoints_encode .international false padding maxChars text buffer

/-- A writer reports the same for decimal points as for periods. -/
theorem outcome_encode_map_withPeriod :
    (encode .international padding maxChars (text.map withPeriod) buffer).2 =
      (encode .international padding maxChars text buffer).2 := by
  have hplacement := Placement.ofText_map_withPeriod 0 buffer.length (text.take maxChars)
  rw [List.map_take] at hplacement
  -- the written bytes end where a reader finds the trash, and that place has not moved
  have hlen := trashStart_replaceDecimalPoints
    (encode .international padding maxChars text buffer).1
  rw [fst_replaceDecimalPoints_encode, trashStart_encode, trashStart_encode] at hlen
  have hcapped : (text.map withPeriod).length - maxChars = text.length - maxChars := by
    rw [List.length_map]
  show Outcome.mk _ _ _ _ = Outcome.mk _ _ _ _
  rw [Outcome.mk.injEq]
  exact ⟨hlen, hplacement.1, hcapped, hplacement.2⟩

/-- Behind a writer as many points are replaced as there are among the characters placed. -/
theorem count_replaceDecimalPoints_encode :
    (replaceDecimalPoints .international false
        (encode .international padding maxChars text buffer).1).2 =
      (text.take (encode .international padding maxChars text buffer).2.chars).count '・' := by
  rw [count_replaceDecimalPoints, decode_encode, count_point_map_fold]

end Encode

/-- Replacing decimal points behind the writer, or periods before it: the buffer is the same, byte
by byte, and so is the outcome. As many bytes are replaced as decimal points were placed, and old
bytes that the writer has kept behind the name stay as they were. -/
theorem replaceDecimalPoints_behind_encode (padding : Padding) (maxChars : Nat) (text : Text)
    (buffer : Bytes) :
    let written := encode .international padding maxChars text buffer
    let replaced := replaceDecimalPoints .international false written.1
    (replaced.1, written.2) =
        encode .international padding maxChars (text.map withPeriod) buffer ∧
      replaced.2 = (text.take written.2.chars).count '・' ∧
      (padding = .keep → ∀ i, written.2.len ≤ i → replaced.1[i]? = buffer[i]?) := by
  intro written replaced
  have hbuffer : replaced.1 = _ := fst_replaceDecimalPoints_encode padding maxChars text buffer
  have houtcome := outcome_encode_map_withPeriod padding maxChars text buffer
  refine ⟨Prod.ext hbuffer houtcome.symm,
    count_replaceDecimalPoints_encode padding maxChars text buffer, ?_⟩
  intro hkeep i hi
  have hlen : (encode .international padding maxChars (text.map withPeriod) buffer).2.len ≤ i := by
    rw [houtcome]
    exact hi
  rw [hbuffer, getElem?_encode_of_len_le _ _ _ _ _ hlen, hkeep]
  rfl

end SaveNames
