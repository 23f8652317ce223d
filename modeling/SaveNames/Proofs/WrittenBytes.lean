import SaveNames.Proofs.Outcome

/-!
# The bytes of a written buffer

A writer works its way through the buffer, but what it leaves there can be said byte by byte:

  `codes of the placed characters ++ terminator ++ padding`

with the terminator only if the codes leave a byte for it, and the padding from the position on
that the outcome reports. A reader finds the trash at the same position (`encode_closed_form`).

No code has a terminator in any of its bytes. So one who looks for the first terminator, byte by
byte and without a thought for two-byte characters, finds the end of the name where a reader finds
it (`idxOf?_terminator_encode`).
-/

namespace SaveNames

variable {locale : Locale} {text : Text}

/-! ## The codes of a text -/

theorem map_some_filterMap_codeOf? (h : ∀ ch ∈ text, (locale.codeOf? ch).isSome = true) :
    (text.filterMap locale.codeOf?).map some = text.map locale.codeOf? := by
  induction text with
  | nil => rfl
  | cons ch text ih =>
    obtain ⟨hch, htext⟩ := List.forall_mem_cons.mp h
    obtain ⟨code, hcode⟩ := Option.isSome_iff_exists.mp hch
    rw [List.filterMap_cons, hcode, List.map_cons, List.map_cons, hcode, ih htext]

/-- The bytes of a text are those of the codes of its characters. -/
theorem bytesOf_unitsOf (locale : Locale) (text : Text) :
    bytesOf (locale.unitsOf text) = (text.filterMap locale.codeOf?).flatMap Code.bytes := by
  simp only [bytesOf, Locale.unitsOf, ← List.map_filterMap, List.flatMap_map, Code.bytes_unit]

/-- The terminator is no byte of any code. -/
theorem terminator_notMem_bytesOf_unitsOf (locale : Locale) (text : Text) :
    terminator ∉ bytesOf (locale.unitsOf text) := by
  rw [bytesOf_unitsOf]
  intro hmem
  obtain ⟨code, hcode, hbyte⟩ := List.mem_flatMap.mp hmem
  obtain ⟨ch, -, hch⟩ := List.mem_filterMap.mp hcode
  exact terminator_notMem_bytes hch hbyte

/-! ## The written buffer, byte by byte -/

section Encode

variable (locale : Locale) (padding : Padding) (maxChars : Nat) (text : Text) (buffer : Bytes)

/-- The codes fill the buffer, or a terminator stands behind them. -/
theorem encode_cases :
    let written := (encode locale padding maxChars text buffer).1
    let name := bytesOf (locale.unitsOf (placed locale maxChars buffer.length text))
    (name.length = buffer.length ∧ written = name) ∨
      (name.length < buffer.length ∧ ∃ behind, written = name ++ terminator :: behind) := by
  intro written name
  have hle : name.length ≤ buffer.length :=
    (fits_placed locale maxChars buffer.length text).widthOf_le
  have hlength := Padding.length_prepare padding buffer
  have hwritten : written = name ++ closeName ((padding.prepare buffer).drop name.length) :=
    encode_eq locale padding maxChars text buffer
  rcases Nat.eq_or_lt_of_le hle with heq | hlt
  · left
    rw [List.drop_eq_nil_of_le (by omega), closeName, List.append_nil] at hwritten
    exact ⟨heq, hwritten⟩
  · right
    have hpos : 0 < ((padding.prepare buffer).drop name.length).length := by
      rw [List.length_drop]
      omega
    rw [closeName_of_length_pos hpos] at hwritten
    exact ⟨hlt, _, hwritten⟩

/-- Behind the written bytes stand those of the prepared buffer. -/
theorem getElem?_encode_of_len_le {i : Nat}
    (h : (encode locale padding maxChars text buffer).2.len ≤ i) :
    (encode locale padding maxChars text buffer).1[i]? = (padding.prepare buffer)[i]? := by
  simp only [encode] at h ⊢
  rw [List.getElem?_append_right h, List.getElem?_drop, Nat.add_sub_of_le h]

/-- The written bytes are those of the name, and a terminator if there was a byte for it. -/
theorem len_encode_eq_min_length :
    (encode locale padding maxChars text buffer).2.len =
      min ((bytesOf (locale.unitsOf (placed locale maxChars buffer.length text))).length + 1)
        buffer.length := by
  rw [len_encode, ← widthOf_unitsOf]
  rfl

/-- What is written ends where a reader finds the trash. -/
theorem trashStart_encode :
    trashStart locale (encode locale padding maxChars text buffer).1 =
      (encode locale padding maxChars text buffer).2.len := by
  have hfits := fits_placed locale maxChars buffer.length text
  have hle := hfits.widthOf_le
  rw [len_encode_eq_min_length, encode_eq, trashStart_name hfits.isSome_codeOf?,
    List.length_drop, Padding.length_prepare]
  show widthOf _ + min 1 (buffer.length - widthOf _) = min (widthOf _ + 1) buffer.length
  omega

end Encode

/-- A prepared buffer holds the fill byte of the padding everywhere, or the old bytes if it keeps
them. -/
theorem getElem?_prepare (padding : Padding) {buffer : Bytes} {i : Nat} (h : i < buffer.length) :
    (padding.prepare buffer)[i]? =
      match padding with
      | .keep => buffer[i]?
      | .zero => some 0x00
      | .fixed => some 0x50
      | .terminator => some 0xFF := by
  cases padding with
  | keep => rfl
  | zero => exact List.getElem?_replicate_of_lt h
  | fixed => exact List.getElem?_replicate_of_lt h
  | terminator => exact List.getElem?_replicate_of_lt h

/-- The written buffer in closed form. Its first bytes are the codes of the placed characters, each
of them whole; then there is a terminator if a byte is left for it; and from the reported position
on, which is where a reader finds the trash, there is the fill of the padding, or the old bytes. -/
theorem encode_closed_form (locale : Locale) (padding : Padding) (maxChars : Nat) (text : Text)
    (buffer : Bytes) :
    let written := (encode locale padding maxChars text buffer).1
    let outcome := (encode locale padding maxChars text buffer).2
    ∃ codes : List Code,
      (text.take outcome.chars).map locale.codeOf? = codes.map some ∧
      codes.length = outcome.chars ∧
      written.length = buffer.length ∧
      written.take (codes.flatMap Code.bytes).length = codes.flatMap Code.bytes ∧
      ((codes.flatMap Code.bytes).length < buffer.length →
        written[(codes.flatMap Code.bytes).length]? = some terminator) ∧
      outcome.len = min ((codes.flatMap Code.bytes).length + 1) buffer.length ∧
      (∀ i, outcome.len ≤ i → i < buffer.length → written[i]? =
        match padding with
        | .keep => buffer[i]?
        | .zero => some 0x00
        | .fixed => some 0x50
        | .terminator => some 0xFF) ∧
      trashStart locale written = outcome.len := by
  intro written outcome
  have hcodes := (fits_placed locale maxChars buffer.length text).isSome_codeOf?
  have hmap := map_some_filterMap_codeOf? hcodes
  have hbytes := bytesOf_unitsOf locale (placed locale maxChars buffer.length text)
  have hcases := encode_cases locale padding maxChars text buffer
  have hlen := len_encode_eq_min_length locale padding maxChars text buffer
  rw [hbytes] at hcases hlen
  refine ⟨(placed locale maxChars buffer.length text).filterMap locale.codeOf?, hmap.symm, ?_,
    length_encode locale padding maxChars text buffer, ?_, ?_, hlen, ?_,
    trashStart_encode locale padding maxChars text buffer⟩
  · have hlength := congrArg List.length hmap
    rw [List.length_map, List.length_map, length_placed] at hlength
    exact hlength
  · rcases hcases with ⟨-, hwritten⟩ | ⟨-, behind, hwritten⟩
    · rw [show written = _ from hwritten, List.take_length]
    · rw [show written = _ from hwritten, List.take_left]
  · intro hlt
    rcases hcases with ⟨heq, -⟩ | ⟨-, behind, hwritten⟩
    · exact absurd heq (Nat.ne_of_lt hlt)
    · rw [show written = _ from hwritten, List.getElem?_append_right (Nat.le_refl _), Nat.sub_self]
      rfl
  · intro i hle hlt
    rw [← getElem?_prepare padding hlt]
    exact getElem?_encode_of_len_le locale padding maxChars text buffer hle

/-! ## The first terminator -/

/-- The first terminator behind a name without one is the one that closes it. -/
theorem idxOf?_append_cons {name behind : Bytes} (h : terminator ∉ name) :
    (name ++ terminator :: behind).idxOf? terminator = some name.length := by
  have hnone : name.findIdx? (· == terminator) = none := List.idxOf?_eq_none_iff.mpr h
  rw [List.idxOf?, List.findIdx?_append, hnone, Option.none_or, List.findIdx?_cons]
  simp

/-- A search for the first terminator that takes every byte for itself finds the end of the name:
the byte in front of the trash, or none if the codes fill the buffer. -/
theorem idxOf?_terminator_encode (locale : Locale) (padding : Padding) (maxChars : Nat)
    (text : Text) (buffer : Bytes) :
    let written := (encode locale padding maxChars text buffer).1
    let outcome := (encode locale padding maxChars text buffer).2
    let width := locale.codesWidth (text.take outcome.chars)
    (∀ ch code, locale.codeOf? ch = some code → terminator ∉ code.bytes) ∧
      width ≤ buffer.length ∧
      (width < buffer.length →
        written.idxOf? terminator = some (outcome.len - 1) ∧
          0 < outcome.len ∧ outcome.len - 1 = trashStart locale written - 1) ∧
      (width = buffer.length → terminator ∉ written) := by
  intro written outcome width
  have hname := terminator_notMem_bytesOf_unitsOf locale
    (placed locale maxChars buffer.length text)
  have hwidth : (bytesOf (locale.unitsOf (placed locale maxChars buffer.length text))).length =
      width := widthOf_unitsOf locale _
  have hcases := encode_cases locale padding maxChars text buffer
  have hlen := len_encode_eq_min_length locale padding maxChars text buffer
  have htrash := trashStart_encode locale padding maxChars text buffer
  simp only [hwidth] at hcases hlen
  refine ⟨fun ch code => terminator_notMem_bytes, ?_, ?_, ?_⟩
  · rcases hcases with ⟨heq, -⟩ | ⟨hlt, -⟩ <;> omega
  · intro hlt
    rcases hcases with ⟨heq, -⟩ | ⟨-, behind, hwritten⟩
    · exact absurd heq (Nat.ne_of_lt hlt)
    · have houtcome : outcome.len = width + 1 := by
        rw [show outcome.len = _ from hlen]
        omega
      rw [htrash, houtcome, show written = _ from hwritten, idxOf?_append_cons hname, hwidth]
      exact ⟨rfl, Nat.succ_pos width, rfl⟩
  · intro heq
    rcases hcases with ⟨-, hwritten⟩ | ⟨hlt, -⟩
    · rw [show written = _ from hwritten]
      exact hname
    · exact absurd heq (Nat.ne_of_lt hlt)

end SaveNames
