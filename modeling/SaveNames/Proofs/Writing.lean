import SaveNames.Proofs.Reading
import SaveNames.Writing

/-!
# What a writer leaves in a buffer

A writer places a first part of the text, and the buffer afterwards is

  `bytes of the units of the placed part ++ rest of the prepared buffer, closed by a terminator`

(`encode_eq`). The placed part fits (`fits_placed`), and it is the whole text if that fits and
the cap allows it (`placed_of_fits`). Reading the buffer then needs no further look at how the
writer worked: the first piece shows the placed part, and the reader stops at the second
(`decode_closeName`).
-/

namespace SaveNames

/-! ## The units of a text -/

/-- The units of the codes of a text's characters. -/
def Locale.unitsOf (locale : Locale) (text : Text) : List CodeUnit :=
  text.filterMap fun ch => (locale.codeOf? ch).map Code.unit

/-- Every character of the text has a code, and the codes fit into so many bytes. -/
structure Locale.Fits (locale : Locale) (room : Nat) (text : Text) : Prop where
  isSome_codeOf? : ∀ ch ∈ text, (locale.codeOf? ch).isSome = true
  widthOf_le : widthOf (locale.unitsOf text) ≤ room

variable {locale : Locale} {room : Nat} {text : Text}

/-- The unit of a character comes in front of those of the text behind it. -/
theorem unitsOf_cons {ch : Char} {code : Code} (h : locale.codeOf? ch = some code) (text : Text) :
    locale.unitsOf (ch :: text) = code.unit :: locale.unitsOf text := by
  rw [Locale.unitsOf, List.filterMap_cons, h]
  rfl

theorem unitsOf_cons_none {ch : Char} (h : locale.codeOf? ch = none) (text : Text) :
    locale.unitsOf (ch :: text) = locale.unitsOf text := by
  rw [Locale.unitsOf, List.filterMap_cons, h]
  rfl

theorem fits_nil : locale.Fits room [] := ⟨by simp, Nat.zero_le room⟩

/-- A text fits if its first character does and the others fit into what is left. -/
theorem fits_cons_iff {ch : Char} {code : Code} (h : locale.codeOf? ch = some code) :
    locale.Fits room (ch :: text) ↔ code.width ≤ room ∧ locale.Fits (room - code.width) text := by
  constructor
  · rintro ⟨hcodes, hwidth⟩
    rw [unitsOf_cons h, widthOf_cons, Code.width_unit] at hwidth
    exact ⟨by omega, (List.forall_mem_cons.mp hcodes).2, by omega⟩
  · rintro ⟨hwidth, hcodes, hrest⟩
    refine ⟨List.forall_mem_cons.mpr ⟨by rw [h]; rfl, hcodes⟩, ?_⟩
    rw [unitsOf_cons h, widthOf_cons, Code.width_unit]
    omega

/-- A reader sees the text in its units, apostrophes in the locale's form. -/
theorem forall₂_shows_unitsOf (h : ∀ ch ∈ text, (locale.codeOf? ch).isSome = true) :
    List.Forall₂ (CodeUnit.Shows locale) (locale.unitsOf text) (text.map locale.fold) := by
  induction text with
  | nil => exact .nil
  | cons ch text ih =>
    obtain ⟨hch, htext⟩ := List.forall_mem_cons.mp h
    obtain ⟨code, hcode⟩ := Option.isSome_iff_exists.mp hch
    rw [unitsOf_cons hcode, List.map_cons]
    exact .cons (shows_unit_of_codeOf? hcode) (ih htext)

/-- The text that is read back has the units of the text that was written. -/
theorem unitsOf_map_fold (locale : Locale) (text : Text) :
    locale.unitsOf (text.map locale.fold) = locale.unitsOf text := by
  simp only [Locale.unitsOf, List.filterMap_map, Function.comp_def, codeOf?_fold]

/-- Folding changes no code, and so not whether a text fits. -/
theorem fits_map_fold_iff : locale.Fits room (text.map locale.fold) ↔ locale.Fits room text := by
  constructor
  · rintro ⟨hcodes, hwidth⟩
    rw [unitsOf_map_fold] at hwidth
    refine ⟨fun ch hmem => ?_, hwidth⟩
    rw [← codeOf?_fold]
    exact hcodes _ (List.mem_map_of_mem hmem)
  · rintro ⟨hcodes, hwidth⟩
    rw [← unitsOf_map_fold] at hwidth
    refine ⟨fun ch hmem => ?_, hwidth⟩
    obtain ⟨ch', hmem', rfl⟩ := List.mem_map.mp hmem
    rw [codeOf?_fold]
    exact hcodes ch' hmem'

/-! ## Placing characters -/

namespace Placement

/-- The placed codes are those of a first part of the text, and the part fits. -/
theorem ofText_spec (locale : Locale) (index room : Nat) (text : Text) :
    (ofText locale index room text).codes.map Code.unit =
        locale.unitsOf (text.take (ofText locale index room text).codes.length) ∧
      locale.Fits room (text.take (ofText locale index room text).codes.length) := by
  -- the room shrinks by every code that is placed
  induction text generalizing index room with
  | nil => exact ⟨rfl, fits_nil⟩
  | cons ch text ih =>
    rw [ofText]
    cases hcode : locale.codeOf? ch with
    | none => exact ⟨rfl, fits_nil⟩
    | some code =>
      by_cases hwidth : code.width ≤ room
      · obtain ⟨hunits, hfits⟩ := ih (index + 1) (room - code.width)
        simp only [if_pos hwidth, cons, List.map_cons, List.length_cons, List.take_succ_cons]
        rw [unitsOf_cons hcode, hunits, fits_cons_iff hcode]
        exact ⟨rfl, hwidth, hfits⟩
      · simp only [if_neg hwidth]
        exact ⟨rfl, fits_nil⟩

theorem length_codes_le (locale : Locale) (index room : Nat) (text : Text) :
    (ofText locale index room text).codes.length ≤ text.length := by
  induction text generalizing index room with
  | nil => exact Nat.le_refl 0
  | cons ch text ih =>
    rw [ofText]
    cases locale.codeOf? ch with
    | none => exact Nat.zero_le _
    | some code =>
      have hrest := ih (index + 1) (room - code.width)
      by_cases hwidth : code.width ≤ room
      · simp only [if_pos hwidth, cons, List.length_cons]
        omega
      · simp only [if_neg hwidth]
        exact Nat.zero_le _

/-- Nothing stops the writer in a text that fits. -/
theorem ofText_of_fits (index : Nat) (h : locale.Fits room text) :
    (ofText locale index room text).codes.length = text.length ∧
      (ofText locale index room text).truncation = none := by
  induction text generalizing index room with
  | nil => exact ⟨rfl, rfl⟩
  | cons ch text ih =>
    obtain ⟨code, hcode⟩ := Option.isSome_iff_exists.mp (h.isSome_codeOf? ch List.mem_cons_self)
    obtain ⟨hwidth, hrest⟩ := (fits_cons_iff hcode).mp h
    obtain ⟨hlength, htruncation⟩ := ih (index + 1) hrest
    rw [ofText]
    simp only [hcode, if_pos hwidth, cons, List.length_cons]
    exact ⟨by rw [hlength], htruncation⟩

/-- The bytes of a placement are those of the units of its codes. -/
theorem bytes_eq_bytesOf (placement : Placement) :
    placement.bytes = bytesOf (placement.codes.map Code.unit) := by
  simp only [bytes, bytesOf, List.flatMap_map, Code.bytes_unit]

end Placement

/-- The part of a text that a writer places in a buffer of `room` bytes. -/
def placed (locale : Locale) (maxChars room : Nat) (text : Text) : Text :=
  text.take (Placement.ofText locale 0 room (text.take maxChars)).codes.length

variable (locale : Locale) (maxChars room : Nat) (text : Text)

/-- No more codes are placed than the cap and the text allow. -/
theorem length_codes_le_min : (Placement.ofText locale 0 room (text.take maxChars)).codes.length
    ≤ min maxChars text.length := by
  rw [← List.length_take]
  exact Placement.length_codes_le locale 0 room (text.take maxChars)

theorem length_placed : (placed locale maxChars room text).length =
    (Placement.ofText locale 0 room (text.take maxChars)).codes.length := by
  have hle := length_codes_le_min locale maxChars room text
  rw [placed, List.length_take]
  omega

theorem length_placed_le : (placed locale maxChars room text).length ≤ maxChars := by
  have hle := length_codes_le_min locale maxChars room text
  rw [length_placed]
  omega

theorem take_take_codes : (text.take maxChars).take
    (Placement.ofText locale 0 room (text.take maxChars)).codes.length =
      placed locale maxChars room text := by
  have hle := length_codes_le_min locale maxChars room text
  rw [placed, List.take_take, Nat.min_eq_left (by omega)]

theorem fits_placed : locale.Fits room (placed locale maxChars room text) := by
  rw [← take_take_codes]
  exact (Placement.ofText_spec locale 0 room (text.take maxChars)).2

/-- The bytes of a placement are those of the placed characters. -/
theorem bytes_ofText : (Placement.ofText locale 0 room (text.take maxChars)).bytes =
    bytesOf (locale.unitsOf (placed locale maxChars room text)) := by
  rw [Placement.bytes_eq_bytesOf, (Placement.ofText_spec locale 0 room (text.take maxChars)).1,
    take_take_codes]

variable {locale maxChars room text}

/-- A text that fits and keeps to the cap is placed as a whole. -/
theorem placed_of_fits (h : locale.Fits room text) (hcap : text.length ≤ maxChars) :
    placed locale maxChars room text = text := by
  rw [placed, List.take_of_length_le hcap, (Placement.ofText_of_fits 0 h).1, List.take_length]

/-! ## The end of a name -/

/-- The bytes behind the codes of a name, with a terminator put over the first of them. -/
def closeName : Bytes → Bytes
  | [] => []
  | _ :: rest => terminator :: rest

theorem length_closeName (rest : Bytes) : (closeName rest).length = rest.length := by
  cases rest <;> rfl

theorem closeName_closeName (rest : Bytes) : closeName (closeName rest) = closeName rest := by
  cases rest <;> rfl

/-- A terminator takes the place of the first byte, if there is one. -/
theorem closeName_of_length_pos {rest : Bytes} (h : 0 < rest.length) :
    closeName rest = terminator :: rest.tail := by
  cases rest with
  | nil => exact absurd h (Nat.lt_irrefl 0)
  | cons first rest => rfl

/-- The terminator is no lead byte in any locale, so it is a unit of its own. -/
theorem isWhole_terminator (locale : Locale) :
    (CodeUnit.single terminator).isWhole locale = true := by
  cases locale <;> decide

theorem isReadable_terminator (locale : Locale) :
    (CodeUnit.single terminator).isReadable locale = false := by
  cases locale <;> decide +kernel

/-- Behind the codes no further unit belongs to the name. -/
theorem nameUnits_closeName (locale : Locale) (rest : Bytes) :
    nameUnits locale (closeName rest) = [] := by
  cases rest with
  | nil => rfl
  | cons first rest =>
    exact nameUnits_stop_append rest (isWhole_terminator locale) (isReadable_terminator locale)

/-- The terminator stops a reader, if there was a byte for it. -/
theorem stop?_closeName (locale : Locale) (rest : Bytes) :
    stop? locale (closeName rest) = rest.head?.map fun _ => .single terminator := by
  cases rest with
  | nil => rfl
  | cons first rest =>
    exact stop?_stop_append rest (isWhole_terminator locale) (isReadable_terminator locale)

theorem decode_closeName (locale : Locale) (rest : Bytes) :
    decode locale (closeName rest) = [] := by
  rw [decode, nameUnits_closeName]
  rfl

theorem trashStart_closeName (locale : Locale) (rest : Bytes) :
    trashStart locale (closeName rest) = min 1 rest.length := by
  rw [trashStart, nameUnits_closeName, stop?_closeName]
  cases rest with
  | nil => rfl
  | cons first rest =>
    rw [List.length_cons, Nat.min_eq_left (by omega)]
    rfl

/-- All that stands behind the terminator is trash. -/
theorem trash_closeName (locale : Locale) (rest : Bytes) :
    trash locale (closeName rest) = rest.tail := by
  rw [trash, trashStart_closeName]
  cases rest with
  | nil => rfl
  | cons first rest =>
    rw [List.length_cons, Nat.min_eq_left (by omega)]
    rfl

/-! ## A name and its end -/

section Name

variable (h : ∀ ch ∈ text, (locale.codeOf? ch).isSome = true) (rest : Bytes)
include h

/-- A reader of a closed name finds its text, folded. -/
theorem decode_name :
    decode locale (bytesOf (locale.unitsOf text) ++ closeName rest) = text.map locale.fold := by
  rw [decode_append (forall₂_shows_unitsOf h), decode_closeName, List.append_nil]

theorem nameUnits_name :
    nameUnits locale (bytesOf (locale.unitsOf text) ++ closeName rest) = locale.unitsOf text := by
  rw [nameUnits_append (forall₂_shows_unitsOf h), nameUnits_closeName, List.append_nil]

/-- The trash of a closed name starts behind its terminator. -/
theorem trashStart_name :
    trashStart locale (bytesOf (locale.unitsOf text) ++ closeName rest) =
      widthOf (locale.unitsOf text) + min 1 rest.length := by
  rw [trashStart_append (forall₂_shows_unitsOf h), trashStart_closeName]

theorem trash_name :
    trash locale (bytesOf (locale.unitsOf text) ++ closeName rest) = rest.tail := by
  rw [trash_append (forall₂_shows_unitsOf h), trash_closeName]

/-- A name that ends like this has no dangling lead byte. -/
theorem decodeChecked_name :
    decodeChecked locale (bytesOf (locale.unitsOf text) ++ closeName rest) =
      .ok (text.map locale.fold) := by
  have hstop : stop? locale (bytesOf (locale.unitsOf text) ++ closeName rest) =
      rest.head?.map fun _ => .single terminator := by
    rw [stop?_append (forall₂_shows_unitsOf h), stop?_closeName]
  rw [decodeChecked, hstop, decode_name h]
  cases rest <;> rfl

end Name

/-! ## The written buffer -/

/-- The codes with the terminator, and what is left behind them, make a closed name. -/
theorem terminated_append_drop {codes prepared : Bytes} (h : codes.length ≤ prepared.length) :
    terminated prepared.length codes ++ prepared.drop (terminated prepared.length codes).length =
      codes ++ closeName (prepared.drop codes.length) := by
  have htake : terminated prepared.length codes =
      codes ++ [terminator].take (prepared.length - codes.length) := by
    rw [terminated, List.take_append, List.take_of_length_le h]
  -- either the codes fill the buffer, or the terminator takes the place of the next byte
  rcases Nat.eq_or_lt_of_le h with heq | hlt
  · have hnil : prepared.drop codes.length = [] := List.drop_eq_nil_of_le (by omega)
    rw [htake, heq, Nat.sub_self, List.take_zero, List.append_nil, heq, List.drop_length,
      closeName]
  · have hpos : 0 < (prepared.drop codes.length).length := by
      rw [List.length_drop]
      omega
    have hone : [terminator].take (prepared.length - codes.length) = [terminator] :=
      List.take_of_length_le (by rw [List.length_singleton]; omega)
    rw [htake, hone, List.length_append, List.length_singleton, ← List.drop_drop,
      closeName_of_length_pos hpos, List.append_assoc, List.drop_one]
    rfl

/-- The written buffer: the units of the placed part, and the rest of the prepared buffer behind
a terminator. -/
theorem encode_eq (locale : Locale) (padding : Padding) (maxChars : Nat) (text : Text)
    (buffer : Bytes) :
    (encode locale padding maxChars text buffer).1 =
      bytesOf (locale.unitsOf (placed locale maxChars buffer.length text)) ++
        closeName ((padding.prepare buffer).drop
          (widthOf (locale.unitsOf (placed locale maxChars buffer.length text)))) := by
  have hlength := Padding.length_prepare padding buffer
  have hfits := (fits_placed locale maxChars buffer.length text).widthOf_le
  rw [encode, bytes_ofText, ← hlength, terminated_append_drop, hlength]
  · rfl
  · rw [hlength]
    exact hfits

theorem length_blankBuffer (length : Nat) : (blankBuffer length).length = length :=
  List.length_replicate

/-- A blank buffer holds the empty name. -/
theorem closeName_blankBuffer (length : Nat) :
    closeName (blankBuffer length) = blankBuffer length := by
  cases length with
  | zero => rfl
  | succ length => rw [blankBuffer, List.replicate_succ, closeName]

/-- A text that fits is placed whole. -/
theorem encode_of_fits (padding : Padding) {buffer : Bytes} (h : locale.Fits buffer.length text)
    (hcap : text.length ≤ maxChars) :
    (encode locale padding maxChars text buffer).1 =
      bytesOf (locale.unitsOf text) ++
        closeName ((padding.prepare buffer).drop (widthOf (locale.unitsOf text))) := by
  rw [encode_eq, placed_of_fits h hcap]

/-- A text that fits and keeps to the cap is reported as complete. -/
theorem isComplete_encode (padding : Padding) {buffer : Bytes}
    (h : locale.Fits buffer.length text) (hcap : text.length ≤ maxChars) :
    (encode locale padding maxChars text buffer).2.isComplete = true := by
  -- an outcome is incomplete if the cap cut something, or if the writer stopped early
  have htruncation := (Placement.ofText_of_fits 0 h).2
  have hcapped : text.length - maxChars = 0 := by omega
  simp only [encode, Outcome.isComplete, List.take_of_length_le hcap, htruncation, hcapped]
  rfl

end SaveNames
