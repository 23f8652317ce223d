import Mathlib.Algebra.GroupWithZero.Nat
import Mathlib.Order.Bounds.Basic
import SaveNames.Proofs.Greedy

/-!
# What a writer reports

An outcome can be told from the text and the room alone. Of the text under the cap, the writer
places **the greatest number of characters that have codes and whose codes fit**; the other parts
of the outcome follow from this number and from the character behind the placed ones
(`Placement.stop_cases`): a writer that stops early stops there, and the reason is that the
character has no code or that its code is wider than the bytes left.
-/

namespace SaveNames

variable {locale : Locale} {room : Nat} {text : Text}

/-! ## Widths of texts -/

/-- How many bytes the codes of a text take; characters without a code take none. -/
def Locale.codesWidth (locale : Locale) (text : Text) : Nat :=
  ((text.filterMap locale.codeOf?).map Code.width).sum

/-- A character adds the width of its code. -/
theorem codesWidth_cons {ch : Char} {code : Code} (h : locale.codeOf? ch = some code)
    (text : Text) : locale.codesWidth (ch :: text) = code.width + locale.codesWidth text := by
  rw [Locale.codesWidth, List.filterMap_cons, h, List.map_cons, List.sum_cons]
  rfl

/-- The units of a text are as wide as the codes of its characters together. -/
theorem widthOf_unitsOf (locale : Locale) (text : Text) :
    widthOf (locale.unitsOf text) = locale.codesWidth text := by
  induction text with
  | nil => rfl
  | cons ch text ih =>
    cases hcode : locale.codeOf? ch with
    | none =>
      rw [unitsOf_cons_none hcode, ih, Locale.codesWidth, Locale.codesWidth,
        List.filterMap_cons, hcode]
    | some code => rw [unitsOf_cons hcode, widthOf_cons, Code.width_unit, codesWidth_cons hcode, ih]

/-- A text fits if and only if every character has a code and the codes are no wider than the room.
-/
theorem fits_iff : locale.Fits room text ↔
    (∀ ch ∈ text, (locale.codeOf? ch).isSome = true) ∧ locale.codesWidth text ≤ room := by
  rw [← widthOf_unitsOf]
  exact ⟨fun h => ⟨h.isSome_codeOf?, h.widthOf_le⟩, fun h => ⟨h.1, h.2⟩⟩

/-! ## Where a writer stops -/

namespace Placement

/-- A writer places the whole text, or it stops at the character behind the placed ones: there is
no code for it, or the code is wider than the bytes left. -/
theorem stop_cases (locale : Locale) (index room : Nat) (text : Text) :
    let placement := ofText locale index room text
    let count := placement.codes.length
    (placement.truncation = none ∧ count = text.length) ∨
      ∃ ch, text[count]? = some ch ∧
        ((locale.codeOf? ch = none ∧
            placement.truncation = some (.unmappable (index + count) ch)) ∨
          ∃ code, locale.codeOf? ch = some code ∧
            room - locale.codesWidth (text.take count) < code.width ∧
            placement.truncation = some (.bufferFull (index + count))) := by
  -- a placed character takes its width from the room, and moves the index on by one
  induction text generalizing index room with
  | nil => exact .inl ⟨rfl, rfl⟩
  | cons ch text ih =>
    rw [ofText]
    cases hcode : locale.codeOf? ch with
    | none => exact .inr ⟨ch, rfl, .inl ⟨hcode, rfl⟩⟩
    | some code =>
      by_cases hwidth : code.width ≤ room
      · have hrest := ih (index + 1) (room - code.width)
        simp only [Nat.add_right_comm index 1] at hrest
        simp only [if_pos hwidth, cons, List.length_cons, List.getElem?_cons_succ,
          List.take_succ_cons, codesWidth_cons hcode, Nat.add_right_cancel_iff, ← Nat.add_assoc,
          ← Nat.sub_sub]
        exact hrest
      · simp only [if_neg hwidth]
        refine .inr ⟨ch, rfl, .inr ⟨code, hcode, ?_, rfl⟩⟩
        exact Nat.lt_of_le_of_lt (Nat.sub_le room _) (Nat.lt_of_not_le hwidth)

end Placement

/-! ## The parts of an outcome -/

section Outcome

variable (locale : Locale) (padding : Padding) (maxChars : Nat) (text : Text) (buffer : Bytes)

/-- No other number of characters that the cap allows and that fit is as great as the one placed. -/
theorem isGreatest_chars_encode :
    IsGreatest {count | count ≤ min text.length maxChars ∧
        locale.Fits buffer.length (text.take count)}
      (encode locale padding maxChars text buffer).2.chars := by
  have hle : (encode locale padding maxChars text buffer).2.chars ≤ min text.length maxChars := by
    rw [Nat.min_comm]
    exact chars_encode_le locale padding maxChars text buffer
  constructor
  · exact ⟨hle, (le_chars_encode_iff locale padding maxChars text buffer hle).mp (Nat.le_refl _)⟩
  · rintro count ⟨hcap, hfits⟩
    exact (le_chars_encode_iff locale padding maxChars text buffer hcap).mpr hfits

/-- The codes were written, and a terminator if there was a byte for it. -/
theorem len_encode :
    (encode locale padding maxChars text buffer).2.len =
      min (locale.codesWidth (text.take (encode locale padding maxChars text buffer).2.chars) + 1)
        buffer.length := by
  show (terminated buffer.length _).length =
    min (locale.codesWidth (placed locale maxChars buffer.length text) + 1) buffer.length
  rw [terminated, List.length_take, List.length_append, List.length_singleton, bytes_ofText,
    ← widthOf_unitsOf, Nat.min_comm]
  rfl

/-- A writer comes to the cap, or it stops at the character behind the placed ones. -/
theorem stop_cases_encode :
    let outcome := (encode locale padding maxChars text buffer).2
    (outcome.truncation = none ∧ outcome.chars = min text.length maxChars) ∨
      ∃ ch, outcome.chars < min text.length maxChars ∧ text[outcome.chars]? = some ch ∧
        ((locale.codeOf? ch = none ∧
            outcome.truncation = some (.unmappable outcome.chars ch)) ∨
          ∃ code, locale.codeOf? ch = some code ∧
            buffer.length - locale.codesWidth (text.take outcome.chars) < code.width ∧
            outcome.truncation = some (.bufferFull outcome.chars)) := by
  intro outcome
  have hstop := Placement.stop_cases locale 0 buffer.length (text.take maxChars)
  simp only [Nat.zero_add, List.length_take, take_take_codes] at hstop
  rcases hstop with ⟨htruncation, hcount⟩ | ⟨ch, hch, hreason⟩
  · left
    exact ⟨htruncation, by rw [Nat.min_comm]; exact hcount⟩
  · right
    rw [List.getElem?_take] at hch
    split at hch
    · next hlt =>
      have hlength : outcome.chars < text.length := (List.getElem?_eq_some_iff.mp hch).1
      exact ⟨ch, Nat.lt_min.mpr ⟨hlength, hlt⟩, hch, hreason⟩
    · cases hch

/-- Nothing stops the writer if and only if it comes to the end of the capped text. -/
theorem truncation_encode_eq_none_iff :
    (encode locale padding maxChars text buffer).2.truncation = none ↔
      (encode locale padding maxChars text buffer).2.chars = min text.length maxChars := by
  rcases stop_cases_encode locale padding maxChars text buffer with
    ⟨hnone, hcap⟩ | ⟨ch, hlt, -, ⟨-, hstop⟩ | ⟨code, -, -, hstop⟩⟩
  · exact ⟨fun _ => hcap, fun _ => hnone⟩
  all_goals
    rw [hstop]
    exact ⟨nofun, fun hcap => absurd hcap (Nat.ne_of_lt hlt)⟩

/-- A character stops the writer as unmappable if and only if it is the first one not placed and has
no code. -/
theorem truncation_encode_eq_unmappable_iff (index : Nat) (ch : Char) :
    (encode locale padding maxChars text buffer).2.truncation = some (.unmappable index ch) ↔
      index = (encode locale padding maxChars text buffer).2.chars ∧
        index < min text.length maxChars ∧ text[index]? = some ch ∧
        locale.codeOf? ch = none := by
  rcases stop_cases_encode locale padding maxChars text buffer with
    ⟨hnone, hcap⟩ | ⟨ch', hlt, hch', ⟨hcode, hstop⟩ | ⟨code, hcode, -, hstop⟩⟩
  · rw [hnone]
    refine ⟨nofun, ?_⟩
    rintro ⟨rfl, hlt, -⟩
    exact absurd hcap (Nat.ne_of_lt hlt)
  · rw [hstop]
    constructor
    · intro heq
      obtain ⟨rfl, rfl⟩ := Truncation.unmappable.inj (Option.some.inj heq)
      exact ⟨rfl, hlt, hch', hcode⟩
    · rintro ⟨rfl, -, hch, -⟩
      obtain rfl := Option.some.inj (hch'.symm.trans hch)
      rfl
  · rw [hstop]
    refine ⟨nofun, ?_⟩
    rintro ⟨rfl, -, hch, hnone⟩
    obtain rfl := Option.some.inj (hch'.symm.trans hch)
    rw [hcode] at hnone
    cases hnone

/-- The buffer is full if and only if the first character not placed has a code that is wider than
what is left. -/
theorem truncation_encode_eq_bufferFull_iff (index : Nat) :
    (encode locale padding maxChars text buffer).2.truncation = some (.bufferFull index) ↔
      index = (encode locale padding maxChars text buffer).2.chars ∧
        index < min text.length maxChars ∧ ∃ ch code, text[index]? = some ch ∧
        locale.codeOf? ch = some code ∧
        buffer.length - locale.codesWidth (text.take index) < code.width := by
  rcases stop_cases_encode locale padding maxChars text buffer with
    ⟨hnone, hcap⟩ | ⟨ch', hlt, hch', ⟨hcode, hstop⟩ | ⟨code, hcode, hwidth, hstop⟩⟩
  · rw [hnone]
    refine ⟨nofun, ?_⟩
    rintro ⟨rfl, hlt, -⟩
    exact absurd hcap (Nat.ne_of_lt hlt)
  · rw [hstop]
    refine ⟨nofun, ?_⟩
    rintro ⟨rfl, -, ch, code, hch, hsome, -⟩
    obtain rfl := Option.some.inj (hch'.symm.trans hch)
    rw [hcode] at hsome
    cases hsome
  · rw [hstop]
    constructor
    · intro heq
      obtain rfl := Truncation.bufferFull.inj (Option.some.inj heq)
      exact ⟨rfl, hlt, ch', code, hch', hcode, hwidth⟩
    · rintro ⟨rfl, -⟩
      rfl

end Outcome

/-- The outcome of writing, told from the text, the cap and the length of the buffer. The writer
places the greatest number of characters under the cap that all have codes and whose codes fit.
Nothing stops it if that number is the cap; else the character behind the placed ones does, which
has no code, or one that is wider than the bytes left. The written bytes are the codes and a
terminator if there is a byte for it, and the outcome is complete if the whole text was placed. -/
theorem outcome_encode (locale : Locale) (padding : Padding) (maxChars : Nat) (text : Text)
    (buffer : Bytes) :
    let outcome := (encode locale padding maxChars text buffer).2
    let cap := min text.length maxChars
    IsGreatest {count | count ≤ cap ∧
        (∀ ch ∈ text.take count, (locale.codeOf? ch).isSome = true) ∧
        locale.codesWidth (text.take count) ≤ buffer.length} outcome.chars ∧
    outcome.capped = text.length - cap ∧
    (outcome.truncation = none ↔ outcome.chars = cap) ∧
    (∀ index ch, outcome.truncation = some (.unmappable index ch) ↔
      index = outcome.chars ∧ index < cap ∧ text[index]? = some ch ∧
        locale.codeOf? ch = none) ∧
    (∀ index, outcome.truncation = some (.bufferFull index) ↔
      index = outcome.chars ∧ index < cap ∧ ∃ ch code, text[index]? = some ch ∧
        locale.codeOf? ch = some code ∧
        buffer.length - locale.codesWidth (text.take index) < code.width) ∧
    outcome.len = min (locale.codesWidth (text.take outcome.chars) + 1) buffer.length ∧
    (outcome.isComplete = true ↔ outcome.chars = text.length) := by
  intro outcome cap
  have hgreatest := isGreatest_chars_encode locale padding maxChars text buffer
  simp only [fits_iff] at hgreatest
  have hcapped : outcome.capped = text.length - cap := by
    show text.length - maxChars = text.length - min text.length maxChars
    omega
  exact ⟨hgreatest, hcapped, truncation_encode_eq_none_iff locale padding maxChars text buffer,
    truncation_encode_eq_unmappable_iff locale padding maxChars text buffer,
    truncation_encode_eq_bufferFull_iff locale padding maxChars text buffer,
    len_encode locale padding maxChars text buffer,
    isComplete_encode_iff locale padding maxChars text buffer⟩

end SaveNames
