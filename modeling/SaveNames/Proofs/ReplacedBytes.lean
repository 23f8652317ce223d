import Mathlib.Data.List.Nodup
import SaveNames.Proofs.ReplacedText

/-!
# Which bytes replacing decimal points touches

A byte with the value of the decimal point may be one, or the second half of a two-byte character,
or trash. The replacement tells them apart by position: **it changes a byte if and only if the byte
is a unit of its own, and nothing up to there stops a reader** (`IsReplaced`,
`getElem?_replaceDecimalPoints`). The count that it returns is the number of such positions.

It changes no unit but for the value of its byte, so the units stand where they stood, the trash
starts where it started, and there is nothing left to be replaced
(`replaceDecimalPoints_bytes`).
-/

namespace SaveNames

variable {locale : Locale} {data : Bytes} {offset i : Nat} {unit : CodeUnit}

/-- The byte in this position is replaced: it has the value of the decimal point, a unit starts at
it, and this unit and all units in front of it can be read. In Japanese and in Korean buffers no
byte is replaced. -/
def IsReplaced (locale : Locale) (korean : Bool) (data : Bytes) (i : Nat) : Prop :=
  locale = .international ∧ korean = false ∧ data[i]? = some 0xAF ∧
    (∃ entry ∈ located 0 (scan locale data), entry.1 = i) ∧
    ∀ entry ∈ located 0 (scan locale data), entry.1 ≤ i → entry.2.isReadable locale = true

instance (locale : Locale) (korean : Bool) (data : Bytes) (i : Nat) :
    Decidable (IsReplaced locale korean data i) :=
  inferInstanceAs (Decidable (_ ∧ _))

/-! ## Positions in the name -/

theorem located_scan (locale : Locale) (data : Bytes) :
    located 0 (scan locale data) = located 0 (nameUnits locale data) ++
      located (widthOf (nameUnits locale data))
        ((scan locale data).dropWhile (·.isReadable locale)) := by
  have hsplit := scan_eq_nameUnits_append locale data
  calc located 0 (scan locale data)
      = located 0 (nameUnits locale data ++
          (scan locale data).dropWhile (·.isReadable locale)) := by rw [← hsplit]
    _ = _ := by rw [located_append, Nat.zero_add]

/-- A unit is one of the name if it can be read, and all units in front of it as well. -/
theorem mem_located_nameUnits_iff :
    (offset, unit) ∈ located 0 (nameUnits locale data) ↔
      (offset, unit) ∈ located 0 (scan locale data) ∧
        ∀ entry ∈ located 0 (scan locale data), entry.1 ≤ offset →
          entry.2.isReadable locale = true := by
  have hstop := List.head?_dropWhile_not (·.isReadable locale) (scan locale data)
  rw [located_scan]
  generalize (scan locale data).dropWhile (·.isReadable locale) = behind at hstop
  constructor
  · intro hmem
    refine ⟨List.mem_append_left _ hmem, ?_⟩
    intro entry hentry hle
    rcases List.mem_append.mp hentry with hname | hbehind
    · exact List.mem_takeWhile_imp (mem_of_mem_located hname)
    · have hend := (bounds_of_mem_located hmem).2
      have hstart := (bounds_of_mem_located hbehind).1
      have hpos := unit.width_pos
      omega
  · intro h
    rcases List.mem_append.mp h.1 with hname | hbehind
    · exact hname
    · -- the unit that stops the reader stands in front of this one, or is this one
      cases behind with
      | nil => cases hbehind
      | cons stop behind =>
        have hstart := (bounds_of_mem_located hbehind).1
        have hreadable := h.2 _ (List.mem_append_right _ List.mem_cons_self) hstart
        exact absurd hreadable (by simpa using hstop)

/-- In an international name, the bytes that are replaced are the units of the decimal point. -/
theorem isReplaced_iff : IsReplaced .international false data i ↔
    (i, .single 0xAF) ∈ located 0 (nameUnits .international data) := by
  have hbyte : ∀ unit, (i, unit) ∈ located 0 (scan .international data) →
      data[i]? = unit.bytes.head? := by
    intro unit hmem
    have hget := getElem?_bytesOf_of_mem_located hmem
    rw [bytesOf_scan] at hget
    exact hget
  constructor
  · intro h
    obtain ⟨-, -, hpoint, ⟨⟨offset, unit⟩, hmem, rfl⟩, hreadable⟩ := h
    have hname := mem_located_nameUnits_iff.mpr ⟨hmem, hreadable⟩
    have hwhole := isWhole_of_forall₂_shows (forall₂_shows_nameUnits .international data) unit
      (mem_of_mem_located hname)
    have hfirst : unit.bytes.head? = some 0xAF := (hbyte unit hmem).symm.trans hpoint
    cases unit with
    | single byte =>
      have hvalue : byte = 0xAF := Option.some.inj hfirst
      rw [hvalue] at hname
      exact hname
    | double lead trail =>
      have hvalue : lead = 0xAF := Option.some.inj hfirst
      rw [hvalue] at hwhole
      change Locale.international.isLead 0xAF = true at hwhole
      exact absurd hwhole (by decide)
    | dangling lead => cases hwhole
  · intro h
    have hscan := mem_located_nameUnits_iff.mp h
    exact ⟨rfl, rfl, hbyte _ hscan.1, ⟨_, hscan.1, rfl⟩, hscan.2⟩

theorem not_isReplaced_of_ne {korean : Bool} (h : ¬(locale = .international ∧ korean = false)) :
    ¬IsReplaced locale korean data i :=
  fun hreplaced => h ⟨hreplaced.1, hreplaced.2.1⟩

/-! ## Counting positions -/

/-- A unit occurs as often as there are positions where it stands. -/
theorem countP_mem_located {units : List CodeUnit} {count : Nat} (h : widthOf units ≤ count)
    (unit : CodeUnit) :
    (List.range count).countP (fun i => (i, unit) ∈ located 0 units) = units.count unit := by
  have hnodup : (((located 0 units).filter (·.2 = unit)).map Prod.fst).Nodup := by
    refine List.Pairwise.map Prod.fst ?_ ((pairwise_located 0 units).filter _)
    intro entry entry' hle
    have hpos := entry.2.width_pos
    omega
  have hperm : ((List.range count).filter fun i => (i, unit) ∈ located 0 units).Perm
      (((located 0 units).filter (·.2 = unit)).map Prod.fst) := by
    rw [List.perm_ext_iff_of_nodup (List.nodup_range.filter _) hnodup]
    intro i
    simp only [List.mem_filter, List.mem_range, List.mem_map, decide_eq_true_eq, Prod.exists,
      exists_and_right, exists_eq_right]
    constructor
    · intro hi
      exact hi.2
    · intro hmem
      have hend := (bounds_of_mem_located hmem).2
      have hpos := unit.width_pos
      exact ⟨by omega, hmem⟩
  rw [List.countP_eq_length_filter, hperm.length_eq, List.length_map,
    ← List.countP_eq_length_filter]
  conv_rhs => rw [← map_snd_located 0 units, List.count, List.countP_map]
  rfl

/-! ## The bytes afterwards -/

/-- Byte by byte, a replaced unit has the new byte where it had the old one. -/
theorem getElem?_bytes_replaceSingle (old new : UInt8) (hi : i < unit.bytes.length) :
    (unit.replaceSingle old new).bytes[i]? =
      if i = 0 ∧ unit = .single old then some new else unit.bytes[i]? := by
  unfold CodeUnit.replaceSingle
  by_cases hunit : unit = .single old
  · subst hunit
    have hzero : i = 0 := Nat.lt_one_iff.mp hi
    rw [if_pos rfl, if_pos ⟨hzero, rfl⟩, hzero]
    rfl
  · rw [if_neg hunit, if_neg fun h => hunit h.2]

/-- Byte by byte, the replaced units have the new byte where they had the old one. -/
theorem getElem?_bytesOf_map_replaceSingle (old new : UInt8) (units : List CodeUnit)
    (start i : Nat) :
    (bytesOf (units.map (CodeUnit.replaceSingle old new)))[i]? =
      if (start + i, .single old) ∈ located start units then some new
      else (bytesOf units)[i]? := by
  -- the position is in the first unit, or it is one of the rest with the first unit taken off
  induction units generalizing start i with
  | nil => simp [located, bytesOf]
  | cons unit units ih =>
    have hpos : 0 < unit.bytes.length := unit.width_pos
    have hwidth : (unit.replaceSingle old new).bytes.length = unit.bytes.length :=
      CodeUnit.width_replaceSingle old new unit
    have hmem : (start + i, CodeUnit.single old) ∈ located start (unit :: units) ↔
        (i = 0 ∧ unit = .single old) ∨
          (start + i, .single old) ∈ located (start + unit.bytes.length) units := by
      rw [located, List.mem_cons, Prod.mk.injEq, Nat.add_eq_left, eq_comm (b := unit)]
      rfl
    rw [bytesOf, bytesOf, List.map_cons, List.flatMap_cons, List.flatMap_cons]
    simp only [hmem]
    by_cases hi : i < unit.bytes.length
    · have htail : (start + i, .single old) ∉ located (start + unit.bytes.length) units := by
        intro hbehind
        have hstart := (bounds_of_mem_located hbehind).1
        omega
      rw [List.getElem?_append_left (by omega), List.getElem?_append_left hi,
        getElem?_bytes_replaceSingle old new hi]
      simp only [htail, or_false]
    · have hrest := ih (start + unit.bytes.length) (i - unit.bytes.length)
      have hindex : start + unit.bytes.length + (i - unit.bytes.length) = start + i := by omega
      have hne : i ≠ 0 := by omega
      rw [hindex] at hrest
      rw [List.getElem?_append_right (by omega), List.getElem?_append_right (by omega), hwidth]
      simp only [hne, false_and, false_or]
      exact hrest

/-- Each byte afterwards is the period if it was replaced, and else the byte from before. -/
theorem getElem?_replaceDecimalPoints_international (data : Bytes) (i : Nat) :
    (replaceDecimalPoints .international false data).1[i]? =
      if IsReplaced .international false data i then some 0xAD else data[i]? := by
  have hlength : (bytesOf (replacedUnits data)).length =
      (bytesOf (nameUnits .international data)).length := widthOf_replacedUnits data
  have hdata : data[i]? = (withName .international data (nameUnits .international data))[i]? := by
    rw [withName_nameUnits]
  rw [replaceDecimalPoints_eq_withName, hdata, withName, withName]
  simp only [isReplaced_iff]
  by_cases hi : i < (bytesOf (nameUnits .international data)).length
  · have hunits := getElem?_bytesOf_map_replaceSingle 0xAF 0xAD (nameUnits .international data) 0 i
    rw [Nat.zero_add] at hunits
    rw [List.getElem?_append_left (by omega), List.getElem?_append_left hi]
    exact hunits
  · have hbehind : (i, .single 0xAF) ∉ located 0 (nameUnits .international data) := by
      intro hmem
      have hend := (bounds_of_mem_located hmem).2
      have hpos := (CodeUnit.single 0xAF).width_pos
      unfold widthOf at hend
      omega
    rw [if_neg hbehind, List.getElem?_append_right (by omega),
      List.getElem?_append_right (by omega), hlength]

/-- Byte by byte, the replacement puts periods where the decimal points of the name are. -/
theorem getElem?_replaceDecimalPoints (locale : Locale) (korean : Bool) (data : Bytes) (i : Nat) :
    (replaceDecimalPoints locale korean data).1[i]? =
      if IsReplaced locale korean data i then some 0xAD else data[i]? := by
  by_cases hreplace : locale = .international ∧ korean = false
  · obtain ⟨rfl, rfl⟩ := hreplace
    exact getElem?_replaceDecimalPoints_international data i
  · rw [replaceDecimalPoints_of_ne hreplace, if_neg (not_isReplaced_of_ne hreplace)]

/-- The number that is returned is that of the replaced bytes. -/
theorem replaceDecimalPoints_count (locale : Locale) (korean : Bool) (data : Bytes) :
    (replaceDecimalPoints locale korean data).2 =
      (List.range data.length).countP (IsReplaced locale korean data ·) := by
  by_cases hreplace : locale = .international ∧ korean = false
  · obtain ⟨rfl, rfl⟩ := hreplace
    have hcount := countP_mem_located (widthOf_nameUnits_le .international data) (.single 0xAF)
    simp only [isReplaced_iff, hcount]
    exact congrArg Prod.snd (replaceDecimalPoints_eq data)
  · simp only [replaceDecimalPoints_of_ne hreplace, not_isReplaced_of_ne hreplace]
    simp

section IsReplaced

variable {korean : Bool} (h : IsReplaced locale korean data i)
include h

/-- No byte of the trash is replaced. -/
theorem IsReplaced.lt_trashStart : i < trashStart locale data := by
  obtain ⟨rfl, rfl⟩ := And.intro h.1 h.2.1
  have hend := (bounds_of_mem_located (isReplaced_iff.mp h)).2
  have hpos := (CodeUnit.single 0xAF).width_pos
  unfold trashStart
  omega

/-- No byte inside a unit is replaced. -/
theorem IsReplaced.ne_of_mem_located {lead trail : UInt8}
    (hmem : (offset, .double lead trail) ∈ located 0 (scan locale data)) : i ≠ offset + 1 := by
  intro hi
  obtain ⟨-, -, -, ⟨⟨start, unit⟩, hstart, rfl⟩, -⟩ := h
  have hend := add_width_le_of_mem_located hmem hstart (by omega)
  have hwidth : (CodeUnit.double lead trail).width = 2 := rfl
  omega

end IsReplaced

/-! ## The units afterwards -/

/-- The units afterwards are the replaced ones of the name and those that stood behind it. -/
theorem scan_replaceDecimalPoints (data : Bytes) :
    scan .international (replaceDecimalPoints .international false data).1 =
      replacedUnits data ++ (scan .international data).dropWhile (·.isReadable .international) := by
  rw [replaceDecimalPoints_eq_withName, scan_withName (forall₂_shows_replacedUnits data)]

/-- Where the units of a buffer stand, and how wide they are. -/
def extents (locale : Locale) (data : Bytes) : List (Nat × Nat) :=
  (located 0 (scan locale data)).map fun entry => (entry.1, entry.2.width)

/-- Every unit stays where it is and keeps its width. -/
theorem extents_replaceDecimalPoints (data : Bytes) :
    extents .international (replaceDecimalPoints .international false data).1 =
      extents .international data := by
  rw [extents, extents, scan_replaceDecimalPoints, located_scan, located_append, Nat.zero_add,
    widthOf_replacedUnits, replacedUnits, located_map (CodeUnit.width_replaceSingle 0xAF 0xAD),
    List.map_append, List.map_append, List.map_map]
  simp only [Function.comp_def, Prod.map, CodeUnit.width_replaceSingle, id]

theorem replaceSingle_replaceSingle {old new : UInt8} (h : new ≠ old) (unit : CodeUnit) :
    (unit.replaceSingle old new).replaceSingle old new = unit.replaceSingle old new := by
  unfold CodeUnit.replaceSingle
  by_cases hunit : unit = .single old
  · simp [hunit, h]
  · simp [hunit]

/-- Behind a replacement there is nothing left to be replaced. -/
theorem replaceDecimalPoints_replaceDecimalPoints (data : Bytes) :
    replaceDecimalPoints .international false
        (replaceDecimalPoints .international false data).1 =
      ((replaceDecimalPoints .international false data).1, 0) := by
  have hname : nameUnits .international (replaceDecimalPoints .international false data).1 =
      replacedUnits data := by
    rw [replaceDecimalPoints_eq_withName, nameUnits_withName (forall₂_shows_replacedUnits data)]
  have hunits : replacedUnits (replaceDecimalPoints .international false data).1 =
      nameUnits .international (replaceDecimalPoints .international false data).1 := by
    rw [replacedUnits, hname, replacedUnits, List.map_map]
    exact List.map_congr_left fun unit _ => replaceSingle_replaceSingle (by decide) unit
  apply Prod.ext
  · rw [replaceDecimalPoints_eq_withName, hunits, withName_nameUnits]
  · rw [count_replaceDecimalPoints, decode_replaceDecimalPoints, List.count_eq_zero]
    intro hmem
    obtain ⟨ch, -, hch⟩ := List.mem_map.mp hmem
    exact withPeriod_ne_point ch hch

/-- Which bytes replacing decimal points touches. A byte changes if and only if it is replaced, and
then it becomes a period; the count is the number of these bytes. So trail bytes, trash and the
length stay as they were, the units stand where they stood and are as wide, the trash starts at the
same place, and to do it again changes nothing. -/
theorem replaceDecimalPoints_bytes (locale : Locale) (korean : Bool) (data : Bytes) :
    let replaced := replaceDecimalPoints locale korean data
    (∀ i, replaced.1[i]? ≠ data[i]? ↔ IsReplaced locale korean data i) ∧
      (∀ i, IsReplaced locale korean data i → replaced.1[i]? = some 0xAD) ∧
      replaced.2 = (List.range data.length).countP (IsReplaced locale korean data ·) ∧
      (∀ offset lead trail, (offset, .double lead trail) ∈ located 0 (scan locale data) →
        replaced.1[offset + 1]? = data[offset + 1]?) ∧
      (∀ i, trashStart locale data ≤ i → replaced.1[i]? = data[i]?) ∧
      replaced.1.length = data.length ∧
      extents locale replaced.1 = extents locale data ∧
      trashStart locale replaced.1 = trashStart locale data ∧
      replaceDecimalPoints locale korean replaced.1 = (replaced.1, 0) := by
  intro replaced
  have hbyte : ∀ i, replaced.1[i]? =
      if IsReplaced locale korean data i then some 0xAD else data[i]? :=
    getElem?_replaceDecimalPoints locale korean data
  have hunits : extents locale replaced.1 = extents locale data ∧
      trashStart locale replaced.1 = trashStart locale data ∧
      replaceDecimalPoints locale korean replaced.1 = (replaced.1, 0) := by
    by_cases hreplace : locale = .international ∧ korean = false
    · obtain ⟨rfl, rfl⟩ := hreplace
      exact ⟨extents_replaceDecimalPoints data, trashStart_replaceDecimalPoints data,
        replaceDecimalPoints_replaceDecimalPoints data⟩
    · have hsame : replaced = (data, 0) := replaceDecimalPoints_of_ne hreplace data
      rw [hsame]
      exact ⟨rfl, rfl, replaceDecimalPoints_of_ne hreplace data⟩
  refine ⟨?_, ?_, replaceDecimalPoints_count locale korean data, ?_, ?_,
    length_replaceDecimalPoints locale korean data, hunits⟩
  · intro i
    rw [hbyte]
    by_cases hi : IsReplaced locale korean data i
    · rw [if_pos hi, hi.2.2.1]
      exact ⟨fun _ => hi, fun _ => by decide⟩
    · rw [if_neg hi]
      exact ⟨fun hne => absurd rfl hne, fun hpos => absurd hpos hi⟩
  · intro i hi
    rw [hbyte, if_pos hi]
  · intro offset lead trail hmem
    rw [hbyte, if_neg fun hi => hi.ne_of_mem_located hmem rfl]
  · intro i hle
    rw [hbyte, if_neg fun hi => Nat.not_lt_of_le hle hi.lt_trashStart]

/-- The value of the decimal point in trail bytes, in a decimal point, and in the trash behind a
two-byte unit that stands for no character. -/
example : (List.range 9).filter
    (IsReplaced .international false [0x01, 0xAF, 0xAF, 0x01, 0xAF, 0x01, 0xFF, 0xAF, 0xAF] ·) =
      [2] := by decide +kernel

end SaveNames
