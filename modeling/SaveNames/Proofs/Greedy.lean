import SaveNames.Proofs.Writing

/-!
# How far a writer comes

Placing goes through the text character by character and never looks ahead, yet what it places
can be said without following it: **the longest first part of the capped text that fits**
(`le_length_codes_iff`). An outcome is complete exactly if every character was placed
(`isComplete_encode_iff`).
-/

namespace SaveNames

variable {locale : Locale} {room : Nat} {text : Text}

/-! ## Parts that fit -/

theorem not_fits_cons_of_codeOf?_eq_none {ch : Char} (h : locale.codeOf? ch = none) :
    ¬locale.Fits room (ch :: text) := by
  intro hfits
  have hsome := hfits.isSome_codeOf? ch List.mem_cons_self
  rw [h] at hsome
  cases hsome

namespace Placement

/-- So many characters are placed if and only if this first part of the text fits. -/
theorem le_length_codes_iff {count : Nat} (index : Nat) (h : count ≤ text.length) :
    count ≤ (ofText locale index room text).codes.length ↔ locale.Fits room (text.take count) := by
  -- the room shrinks by every code that is placed, and the number asked for by one
  induction text generalizing index room count with
  | nil =>
    obtain rfl : count = 0 := Nat.le_zero.mp h
    exact ⟨fun _ => fits_nil, fun _ => Nat.le_refl 0⟩
  | cons ch text ih =>
    cases count with
    | zero => exact ⟨fun _ => fits_nil, fun _ => Nat.zero_le _⟩
    | succ count =>
      have hrest : count ≤ text.length := Nat.le_of_succ_le_succ h
      rw [ofText, List.take_succ_cons]
      cases hcode : locale.codeOf? ch with
      | none =>
        refine ⟨fun hle => absurd hle (Nat.not_succ_le_zero count), fun hfits => ?_⟩
        exact absurd hfits (not_fits_cons_of_codeOf?_eq_none hcode)
      | some code =>
        rw [fits_cons_iff hcode]
        by_cases hwidth : code.width ≤ room
        · simp only [if_pos hwidth, cons, List.length_cons, Nat.add_le_add_iff_right]
          rw [ih (index + 1) hrest]
          exact ⟨fun hfits => ⟨hwidth, hfits⟩, fun hfits => hfits.2⟩
        · simp only [if_neg hwidth]
          exact ⟨fun hle => absurd hle (Nat.not_succ_le_zero count),
            fun hfits => absurd hfits.1 hwidth⟩

/-- Nothing stops the writer if and only if it places every character. -/
theorem truncation_eq_none_iff (locale : Locale) (index room : Nat) (text : Text) :
    (ofText locale index room text).truncation = none ↔
      (ofText locale index room text).codes.length = text.length := by
  induction text generalizing index room with
  | nil => exact ⟨fun _ => rfl, fun _ => rfl⟩
  | cons ch text ih =>
    rw [ofText]
    cases locale.codeOf? ch with
    | none => simp
    | some code =>
      by_cases hwidth : code.width ≤ room
      · simp only [if_pos hwidth, cons, List.length_cons, ih, Nat.add_right_cancel_iff]
      · simp [if_neg hwidth]

end Placement

/-- Every first part of a text that fits does so too. -/
theorem Locale.Fits.take (h : locale.Fits room text) (count : Nat) :
    locale.Fits room (text.take count) := by
  by_cases hcount : count ≤ text.length
  · rw [← Placement.le_length_codes_iff 0 hcount, (Placement.ofText_of_fits 0 h).1]
    exact hcount
  · rw [List.take_of_length_le (by omega)]
    exact h

/-! ## Outcomes -/

/-- An outcome is complete if and only if no character was cut off by the cap and nothing stopped
the writer. -/
theorem Outcome.isComplete_iff (outcome : Outcome) :
    outcome.isComplete = true ↔ outcome.capped = 0 ∧ outcome.truncation = none := by
  rw [isComplete, Bool.and_eq_true, decide_eq_true_eq, Option.isNone_iff_eq_none]

section Outcome

variable (locale : Locale) (padding : Padding) (maxChars : Nat) (text : Text) (buffer : Bytes)

/-- The writer places no more characters than the cap and the text allow. -/
theorem chars_encode_le :
    (encode locale padding maxChars text buffer).2.chars ≤ min maxChars text.length :=
  length_codes_le_min locale maxChars buffer.length text

/-- A first part of the capped text was placed if and only if it fits. -/
theorem le_chars_encode_iff {count : Nat} (h : count ≤ min text.length maxChars) :
    count ≤ (encode locale padding maxChars text buffer).2.chars ↔
      locale.Fits buffer.length (text.take count) := by
  have hlength : count ≤ (text.take maxChars).length := by
    rw [List.length_take]
    omega
  have htake : (text.take maxChars).take count = text.take count := by
    rw [List.take_take, Nat.min_eq_left (by omega)]
  rw [← htake]
  exact Placement.le_length_codes_iff 0 hlength

/-- An outcome is complete if and only if the writer placed the whole text. -/
theorem isComplete_encode_iff :
    (encode locale padding maxChars text buffer).2.isComplete = true ↔
      (encode locale padding maxChars text buffer).2.chars = text.length := by
  have hle := length_codes_le_min locale maxChars buffer.length text
  have hstop := Placement.truncation_eq_none_iff locale 0 buffer.length (text.take maxChars)
  rw [List.length_take] at hstop
  rw [Outcome.isComplete_iff]
  show text.length - maxChars = 0 ∧
    (Placement.ofText locale 0 buffer.length (text.take maxChars)).truncation = none ↔
      (Placement.ofText locale 0 buffer.length (text.take maxChars)).codes.length = text.length
  rw [hstop]
  omega

end Outcome

/-- Only the cap stops the writer in a text that fits. -/
theorem outcome_encode_of_fits (padding : Padding) (maxChars : Nat) {buffer : Bytes}
    (h : locale.Fits buffer.length text) :
    (encode locale padding maxChars text buffer).2.chars = min maxChars text.length ∧
      (encode locale padding maxChars text buffer).2.truncation = none := by
  have hplaced := Placement.ofText_of_fits 0 (h.take maxChars)
  rw [List.length_take] at hplaced
  exact hplaced

/-- The outcome depends on the buffer and on the padding only through the room that there is. -/
theorem outcome_encode_congr {maxChars : Nat} {buffer buffer' : Bytes}
    (padding padding' : Padding) (h : buffer.length = buffer'.length) :
    (encode locale padding maxChars text buffer).2 =
      (encode locale padding' maxChars text buffer').2 := by
  simp only [encode, h]

/-! ## Writing with no cap but the room -/

/-- A text that fits has at most one character for each byte of the room. -/
theorem length_le_of_fits (h : locale.Fits room text) : text.length ≤ room := by
  have hunits := (forall₂_shows_unitsOf h.isSome_codeOf?).length_eq
  have hbytes := length_le_widthOf (locale.unitsOf text)
  have hwidth := h.widthOf_le
  rw [List.length_map] at hunits
  omega

/-- Where the cap is the length of the buffer, so many characters are placed if and only if this
first part of the text fits. -/
theorem le_chars_encodeFresh_iff (locale : Locale) (padding : Padding) {length count : Nat}
    {text : Text} (h : count ≤ text.length) :
    count ≤ (encodeFresh locale padding length length text).2.chars ↔
      locale.Fits length (text.take count) := by
  have hplaced : count ≤ min text.length length →
      (count ≤ (encodeFresh locale padding length length text).2.chars ↔
        locale.Fits (blankBuffer length).length (text.take count)) :=
    le_chars_encode_iff locale padding length text (blankBuffer length)
  have hle : (encodeFresh locale padding length length text).2.chars ≤ min length text.length :=
    chars_encode_le locale padding length text (blankBuffer length)
  have hlength : (text.take count).length = count := by
    rw [List.length_take]
    omega
  rw [length_blankBuffer] at hplaced
  -- past the cap neither side can hold
  by_cases hcap : count ≤ length
  · exact hplaced (by omega)
  · constructor
    · intro hchars
      omega
    · intro hfits
      have hroom := length_le_of_fits hfits
      omega

end SaveNames
