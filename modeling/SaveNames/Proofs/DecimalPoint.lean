import SaveNames.DecimalPoint
import SaveNames.Proofs.Greedy

/-!
# Decimal points as characters

The replacement of decimal points works on single bytes, but it can be told from the text alone:
in a written name it has the effect of writing the text with periods for its decimal points
(`replaceDecimalPoints_name`). Point and period both have one-byte codes, so nothing behind them
moves, and a writer comes as far with the one as with the other. So it makes no difference
whether the points are replaced behind the writer or before it (`replaceDecimalPoints_encode`).
-/

namespace SaveNames

/-- The character, with a period for the decimal point. -/
def withPeriod (ch : Char) : Char := if ch = '・' then '.' else ch

/-- No decimal point is left. -/
theorem withPeriod_ne_point (ch : Char) : withPeriod ch ≠ '・' := by
  unfold withPeriod
  split
  · decide
  · next hne => exact hne

theorem withPeriod_withPeriod (ch : Char) : withPeriod (withPeriod ch) = withPeriod ch :=
  if_neg (withPeriod_ne_point ch)

theorem codeOf?_point : Locale.international.codeOf? '・' = some (.single 0xAF) := by
  decide +kernel

theorem codeOf?_period : Locale.international.codeOf? '.' = some (.single 0xAD) := by
  decide +kernel

variable {ch : Char} {code : Code}

/-- Folding makes no decimal points, and spares those that are there. -/
theorem fold_eq_point_iff : Locale.international.fold ch = '・' ↔ ch = '・' := by
  cases happ : Code.isApostrophe ch with
  | false => rw [Locale.fold_of_not_isApostrophe happ]
  | true =>
    have hch := Code.isApostrophe_iff.mp happ
    rw [Locale.fold_of_isApostrophe happ]
    constructor
    · intro h
      exact absurd h (by decide)
    · intro h
      rw [h] at hch
      exact absurd hch (by decide)

/-- The decimal point is the only character that is written as its byte. -/
theorem unit_ne_point (h : Locale.international.codeOf? ch = some code) (hch : ch ≠ '・') :
    code.unit ≠ .single 0xAF := by
  intro hunit
  have hshows := (shows_unit_of_codeOf? h).2
  have hpoint := (shows_unit_of_codeOf? codeOf?_point).2
  rw [hunit] at hshows
  have hfold : Locale.international.fold ch = Locale.international.fold '・' :=
    Option.some.inj (hshows.symm.trans hpoint)
  rw [fold_eq_point_iff.mpr rfl] at hfold
  exact hch (fold_eq_point_iff.mp hfold)

/-- A character without a code is no decimal point, so it stays. -/
theorem withPeriod_of_codeOf?_eq_none (h : Locale.international.codeOf? ch = none) :
    withPeriod ch = ch := by
  rw [withPeriod, if_neg]
  rintro rfl
  rw [codeOf?_point] at h
  cases h

/-- The code of the replaced character is the code with the byte replaced. -/
theorem exists_codeOf?_withPeriod (h : Locale.international.codeOf? ch = some code) :
    ∃ code', Locale.international.codeOf? (withPeriod ch) = some code' ∧
      code'.unit = code.unit.replaceSingle 0xAF 0xAD := by
  by_cases hch : ch = '・'
  · rw [hch, codeOf?_point, Option.some.injEq] at h
    rw [withPeriod, if_pos hch, ← h]
    exact ⟨_, codeOf?_period, rfl⟩
  · rw [withPeriod, if_neg hch, CodeUnit.replaceSingle, if_neg (unit_ne_point h hch)]
    exact ⟨code, h, rfl⟩

variable {text : Text}

/-- A period has a code just as the decimal point has. -/
theorem isSome_codeOf?_withPeriod (ch : Char) :
    (Locale.international.codeOf? (withPeriod ch)).isSome =
      (Locale.international.codeOf? ch).isSome := by
  cases hcode : Locale.international.codeOf? ch with
  | none => rw [withPeriod_of_codeOf?_eq_none hcode, hcode]
  | some code =>
    obtain ⟨code', hcode', -⟩ := exists_codeOf?_withPeriod hcode
    rw [hcode']
    rfl

theorem isSome_codeOf?_map_withPeriod_iff :
    (∀ ch ∈ text.map withPeriod, (Locale.international.codeOf? ch).isSome = true) ↔
      ∀ ch ∈ text, (Locale.international.codeOf? ch).isSome = true := by
  rw [List.forall_mem_map]
  simp only [isSome_codeOf?_withPeriod]

/-- The units of a text with periods are those of the text with the byte of the point replaced. -/
theorem unitsOf_map_withPeriod (text : Text) :
    Locale.international.unitsOf (text.map withPeriod) =
      (Locale.international.unitsOf text).map (CodeUnit.replaceSingle 0xAF 0xAD) := by
  induction text with
  | nil => rfl
  | cons ch text ih =>
    cases hcode : Locale.international.codeOf? ch with
    | none =>
      rw [List.map_cons, withPeriod_of_codeOf?_eq_none hcode, unitsOf_cons_none hcode,
        unitsOf_cons_none hcode, ih]
    | some code =>
      obtain ⟨code', hcode', hunit⟩ := exists_codeOf?_withPeriod hcode
      rw [List.map_cons, unitsOf_cons hcode', unitsOf_cons hcode, List.map_cons, hunit, ih]

theorem widthOf_unitsOf_map_withPeriod (text : Text) :
    widthOf (Locale.international.unitsOf (text.map withPeriod)) =
      widthOf (Locale.international.unitsOf text) := by
  rw [unitsOf_map_withPeriod, widthOf_map_replaceSingle]

/-- A writer comes as far with periods as with decimal points, and the same thing stops it. -/
theorem Placement.ofText_map_withPeriod (index room : Nat) (text : Text) :
    (ofText .international index room (text.map withPeriod)).codes.length =
        (ofText .international index room text).codes.length ∧
      (ofText .international index room (text.map withPeriod)).truncation =
        (ofText .international index room text).truncation := by
  -- the replaced character takes as much of the room as the character itself
  induction text generalizing index room with
  | nil => exact ⟨rfl, rfl⟩
  | cons ch text ih =>
    rw [List.map_cons, ofText, ofText]
    cases hcode : Locale.international.codeOf? ch with
    | none =>
      rw [withPeriod_of_codeOf?_eq_none hcode, hcode]
      exact ⟨rfl, rfl⟩
    | some code =>
      obtain ⟨code', hcode', hunit⟩ := exists_codeOf?_withPeriod hcode
      have hwidth : code'.width = code.width := by
        rw [← Code.width_unit, hunit, CodeUnit.width_replaceSingle, Code.width_unit]
      have hrest := ih (index + 1) (room - code.width)
      by_cases hroom : code.width ≤ room
      · simp only [hcode', hwidth, if_pos hroom, cons, List.length_cons, hrest, and_self]
      · simp only [hcode', hwidth, if_neg hroom, and_self]

/-- The same characters are placed with periods as with points. -/
theorem placed_map_withPeriod (maxChars room : Nat) (text : Text) :
    placed .international maxChars room (text.map withPeriod) =
      (placed .international maxChars room text).map withPeriod := by
  have hcount := (Placement.ofText_map_withPeriod 0 room (text.take maxChars)).1
  rw [List.map_take] at hcount
  rw [placed, placed, hcount, List.map_take]

/-! ## Replacing behind the writer -/

/-- The replacement of decimal points in closed form: only the units of the name are touched. -/
theorem replaceDecimalPoints_eq (data : Bytes) :
    replaceDecimalPoints .international false data =
      (bytesOf ((nameUnits .international data).map (CodeUnit.replaceSingle 0xAF 0xAD)) ++
          data.drop (widthOf (nameUnits .international data)),
        (nameUnits .international data).count (.single 0xAF)) := by
  rw [drop_widthOf_nameUnits, ← bytesOf_append]
  rfl

/-- Replacing the decimal points of a written name is writing periods for them. -/
theorem replaceDecimalPoints_name
    (h : ∀ ch ∈ text, (Locale.international.codeOf? ch).isSome = true) (rest : Bytes) :
    (replaceDecimalPoints .international false
        (bytesOf (Locale.international.unitsOf text) ++ closeName rest)).1 =
      bytesOf (Locale.international.unitsOf (text.map withPeriod)) ++ closeName rest := by
  rw [replaceDecimalPoints_eq, nameUnits_name h, widthOf, List.drop_left, unitsOf_map_withPeriod]

/-- Elsewhere nothing is replaced. -/
theorem replaceDecimalPoints_of_ne {locale : Locale} {korean : Bool}
    (h : ¬(locale = .international ∧ korean = false)) (data : Bytes) :
    replaceDecimalPoints locale korean data = (data, 0) := by
  cases locale <;> cases korean <;> simp_all [replaceDecimalPoints, Locale.decimalPoint?]

/-- The text of a default name as it is stored: with periods for its decimal points, where these
are replaced at all. -/
def storedText (locale : Locale) (korean : Bool) (text : Text) : Text :=
  if locale = .international ∧ korean = false then text.map withPeriod else text

/-- A stored text holds no decimal point that could be replaced. -/
theorem storedText_storedText (locale : Locale) (korean : Bool) (text : Text) :
    storedText locale korean (storedText locale korean text) = storedText locale korean text := by
  unfold storedText
  split
  · rw [List.map_map]
    exact List.map_congr_left fun ch _ => withPeriod_withPeriod ch
  · rfl

/-- Replacing the decimal points behind the writer is giving it periods to write. -/
theorem replaceDecimalPoints_encode (locale : Locale) (korean : Bool) (padding : Padding)
    (maxChars : Nat) (text : Text) (buffer : Bytes) :
    (replaceDecimalPoints locale korean (encode locale padding maxChars text buffer).1).1 =
      (encode locale padding maxChars (storedText locale korean text) buffer).1 := by
  by_cases hreplace : locale = .international ∧ korean = false
  · obtain ⟨rfl, rfl⟩ := hreplace
    have hcodes := (fits_placed .international maxChars buffer.length text).isSome_codeOf?
    rw [storedText, if_pos ⟨rfl, rfl⟩, encode_eq, encode_eq, replaceDecimalPoints_name hcodes,
      placed_map_withPeriod, widthOf_unitsOf_map_withPeriod]
  · rw [storedText, if_neg hreplace, replaceDecimalPoints_of_ne hreplace]

end SaveNames
