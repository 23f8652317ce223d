import SaveNames.Proofs.Padding
import SaveNames.Proofs.StoredNames.Fields

/-!
# The padding that a field shows

No record says with which padding its fields were written; an edit reads it off the trash. What
it finds is always one of two paddings that fill the whole buffer, so an edit **writes from
scratch**: of the old bytes it keeps nothing but the style (`buffer_edit_eq_fresh`), and its own
trash is one byte repeated (`eq_paddingByte_of_mem_trashOf_edit`).

The style survives as long as there is trash. A buffer that was written with a padding is the
same again when its text is written with the style that it shows (`fresh_paddingStyle`): either
the trash tells the padding, or there is none and the padding makes no difference.
-/

namespace SaveNames

namespace StoredNames

/-! ## Writing from scratch -/

/-- The buffer of the field when a text is written into it from scratch. -/
def fresh (stored : StoredNames) (field : Field) (padding : Padding) (text : Text) : Bytes :=
  (encodeFresh stored.locale padding (stored.layout.maxChars field) (stored.layout.length field)
    text).1

/-- The trash of the field. -/
def trashOf (stored : StoredNames) (field : Field) : Bytes :=
  trash stored.locale (stored.buffer field)

variable {stored : StoredNames} {field : Field} {padding : Padding} {text : Text}

/-- The trash of a field that was filled with one byte. -/
theorem trash_fresh {byte : UInt8} (hfill : padding.fill? = some byte) (stored : StoredNames)
    (field : Field) (text : Text) :
    ∃ count, trash stored.locale (stored.fresh field padding text) = List.replicate count byte :=
  ⟨_, trash_encodeFresh hfill ..⟩

/-- A name is written again as it was. -/
theorem fresh_decode_fresh (stored : StoredNames) (field : Field) (padding : Padding)
    (text : Text) :
    stored.fresh field padding (decode stored.locale (stored.fresh field padding text)) =
      stored.fresh field padding text :=
  encodeFresh_decode_encodeFresh ..

/-- What is written from scratch depends on the record through its locale only. -/
theorem fresh_congr {stored' : StoredNames} (h : stored'.locale = stored.locale) (field : Field)
    (padding : Padding) (text : Text) :
    stored'.fresh field padding text = stored.fresh field padding text := by
  rw [fresh, fresh, layout, layout, h]

/-! ## The style -/

/-- Some byte of the field's trash is zero. -/
def ShowsZeros (stored : StoredNames) (field : Field) : Prop := 0 ∈ stored.trashOf field

instance : Decidable (stored.ShowsZeros field) :=
  inferInstanceAs (Decidable (0 ∈ stored.trashOf field))

/-- The byte that an edit leaves behind the new name. -/
def paddingByte (stored : StoredNames) (field : Field) : UInt8 :=
  if stored.ShowsZeros field then 0 else fixedFill

theorem paddingByte_eq_zero_iff : stored.paddingByte field = 0 ↔ stored.ShowsZeros field := by
  have hne : fixedFill ≠ 0 := by decide
  rw [paddingByte]
  split
  · next hzeros => exact ⟨fun _ => hzeros, fun _ => rfl⟩
  · next hzeros => exact ⟨fun h => absurd h hne, fun h => absurd h hzeros⟩

theorem showsZeros_congr {stored' : StoredNames} (hlocale : stored'.locale = stored.locale)
    (hbuffer : stored'.buffer field = stored.buffer field) :
    stored'.ShowsZeros field ↔ stored.ShowsZeros field := by
  rw [ShowsZeros, ShowsZeros, trashOf, trashOf, hlocale, hbuffer]

/-- The style is the zero fill if the trash has a zero, and else the fixed fill. -/
theorem paddingStyle_eq (stored : StoredNames) (field : Field) :
    stored.paddingStyle field = if stored.ShowsZeros field then .zero else .fixed := by
  have hcontains : (stored.trashOf field).contains 0 = true ↔ stored.ShowsZeros field :=
    List.contains_iff_mem
  show (if (stored.trashOf field).contains 0 = true then _ else _) = _
  simp only [hcontains]

/-- Whatever the style, it fills the buffer with its byte. -/
theorem fill?_paddingStyle (stored : StoredNames) (field : Field) :
    (stored.paddingStyle field).fill? = some (stored.paddingByte field) := by
  rw [paddingStyle_eq, paddingByte]
  split <;> rfl

/-- An edit keeps nothing of the old bytes but the style. -/
theorem buffer_edit_eq_fresh (stored : StoredNames) (field : Field) (text : Text) :
    (stored.edit field text).1.buffer field =
      stored.fresh field (stored.paddingStyle field) text := by
  have hfill := fill?_paddingStyle stored field
  rw [buffer_edit, encode_eq_encodeFresh hfill, stored.length_buffer field]
  rfl

theorem buffer_edit_eq_fresh_self (stored : StoredNames) (field : Field) (text : Text) :
    (stored.edit field text).1.buffer field =
      (stored.edit field text).1.fresh field (stored.paddingStyle field) text := by
  rw [buffer_edit_eq_fresh, fresh_congr (locale_edit stored field text)]

/-- Behind an edited name stands the byte of the style that the field showed before. -/
theorem eq_paddingByte_of_mem_trashOf_edit (stored : StoredNames) (field : Field) (text : Text) :
    ∀ byte ∈ (stored.edit field text).1.trashOf field, byte = stored.paddingByte field := by
  have hfill := fill?_paddingStyle stored field
  obtain ⟨count, hcount⟩ := trash_fresh hfill stored field text
  intro byte hmem
  rw [trashOf, locale_edit, buffer_edit_eq_fresh, hcount] at hmem
  exact List.eq_of_mem_replicate hmem

/-! ## Reading a padding off a buffer -/

/-- The trash of a written buffer is one byte repeated, so it shows zeros just if there is any and
that byte is zero. -/
theorem showsZeros_iff {byte : UInt8} (hfill : padding.fill? = some byte)
    (hbuffer : stored.buffer field = stored.fresh field padding text) :
    stored.ShowsZeros field ↔ stored.trashOf field ≠ [] ∧ byte = 0 := by
  obtain ⟨count, hcount⟩ := trash_fresh hfill stored field text
  rw [← hbuffer] at hcount
  have hnil : List.replicate count byte ≠ [] ↔ count ≠ 0 :=
    not_congr (List.replicate_eq_nil_iff byte)
  rw [ShowsZeros, show stored.trashOf field = _ from hcount, List.mem_replicate, hnil,
    eq_comm (b := byte)]

/-- An edit keeps the zeros that it finds, if it leaves any trash. -/
theorem showsZeros_edit_iff (text : Text) :
    (stored.edit field text).1.ShowsZeros field ↔
      stored.ShowsZeros field ∧ (stored.edit field text).1.trashOf field ≠ [] := by
  have hfill := fill?_paddingStyle stored field
  have hbuffer := buffer_edit_eq_fresh_self stored field text
  rw [showsZeros_iff hfill hbuffer, paddingByte_eq_zero_iff, and_comm]

/-- Trash tells the padding that it was written with, and the fixed one is assumed without. -/
theorem paddingStyle_of_buffer_eq
    (hpadding : padding = .fixed ∨ padding = .zero ∧ stored.trashOf field ≠ [])
    (hbuffer : stored.buffer field = stored.fresh field padding text) :
    stored.paddingStyle field = padding := by
  rw [paddingStyle_eq]
  rcases hpadding with rfl | ⟨rfl, htrash⟩
  · have hne : fixedFill ≠ 0 := by decide
    have hzeros := showsZeros_iff (show Padding.fill? .fixed = some fixedFill from rfl) hbuffer
    rw [if_neg fun h => hne (hzeros.mp h).2]
  · have hzeros := showsZeros_iff (show Padding.fill? .zero = some 0 from rfl) hbuffer
    rw [if_pos (hzeros.mpr ⟨htrash, rfl⟩)]

/-- A written buffer comes out the same when its text is written with the style that it shows. -/
theorem fresh_paddingStyle (hpadding : padding = .zero ∨ padding = .fixed)
    (hbuffer : stored.buffer field = stored.fresh field padding text) :
    stored.fresh field (stored.paddingStyle field) text = stored.buffer field := by
  by_cases htrash : stored.trashOf field = []
  · rw [trashOf, hbuffer] at htrash
    rw [hbuffer]
    exact (encodeFresh_eq_of_trash_eq_nil htrash).symm
  · have hshown : padding = .fixed ∨ padding = .zero ∧ stored.trashOf field ≠ [] :=
      hpadding.symm.imp id fun hzero => ⟨hzero, htrash⟩
    rw [paddingStyle_of_buffer_eq hshown hbuffer, hbuffer]

end StoredNames

end SaveNames
