import SaveNames.Proofs.DecimalPoint
import SaveNames.Proofs.Writing

/-!
# One access at a time

The rules of the library say what comes out, and as rules on lists they cannot reach outside of
anything. This file says how it comes about in a buffer: a reader goes from position to position
and looks every unit up in a table, a writer puts one byte after the other. Every access is
checked here, and one that falls outside is a *fault*.

**No access faults, and what comes out is what the rules say**: for the walk of a reader through
the name (`InPlace.walk_unitsFrom`) and what reading, finding the trash and replacing decimal
points make of it (`InPlace.decode_eq`, `InPlace.trashStart_eq`, `InPlace.replaceDecimalPoints_eq`),
and for writing (`InPlace.encode_eq`), in buffers of any length and with any contents.

What it rests on is that a scan yields no unit with a key past its table
(`CodeUnit.value_lt_size`): lead bytes end where the pages of the extended set end.
-/

namespace SaveNames

/-- An access that falls outside of what it goes to. -/
inductive Fault
  /-- A key past the last slot of its set. -/
  | key (outside : Charset.KeyOutside)
  /-- A byte is put past the end of a buffer. -/
  | position (position size : Nat)
  /-- A slice begins past the end of a buffer. -/
  | slice (start size : Nat)
  /-- A buffer is not as long as its field. -/
  | length (actual expected : Nat)
deriving DecidableEq, Repr

namespace InPlace

/-! ## Single accesses -/

/-- The character that a unit stands for. -/
def resolve (locale : Locale) (unit : CodeUnit) : Except Fault (Option Char) :=
  (unit.meaning locale).mapError .key

/-- Puts a byte into a buffer. -/
def put (buffer : Bytes) (position : Nat) (byte : UInt8) : Except Fault Bytes :=
  if position < buffer.length then .ok (buffer.set position byte)
  else .error (.position position buffer.length)

/-- The bytes of a buffer from a position on. -/
def sliceFrom (buffer : Bytes) (start : Nat) : Except Fault Bytes :=
  if start ≤ buffer.length then .ok (buffer.drop start)
  else .error (.slice start buffer.length)

/-! ## Going through the units -/

/-- The unit at a position. A lead byte looks at the byte behind it, if there is one. -/
def unitAt? (locale : Locale) (data : Bytes) (offset : Nat) : Option CodeUnit :=
  data[offset]?.map fun byte =>
    if locale.isLead byte then
      match data[offset + 1]? with
      | some trail => .double byte trail
      | none => .dangling byte
    else .single byte

/-- The units from a position on, each with its own position. -/
def unitsFrom (locale : Locale) (data : Bytes) (offset : Nat) : List (Nat × CodeUnit) :=
  match _h : unitAt? locale data offset with
  | none => []
  | some unit => (offset, unit) :: unitsFrom locale data (offset + unit.width)
termination_by data.length - offset
decreasing_by
  have hlt : offset < data.length := by
    simp only [unitAt?, Option.map_eq_some_iff] at _h
    obtain ⟨byte, hbyte, -⟩ := _h
    exact (List.getElem?_eq_some_iff.mp hbyte).1
  have hpos := unit.width_pos
  omega

/-- Goes through units up to the first that stands for no character: the units that are passed,
each with its character, and the unit that stops, if one does. -/
def walk (locale : Locale) : List (Nat × CodeUnit) →
    Except Fault (List ((Nat × CodeUnit) × Char) × Option (Nat × CodeUnit))
  | [] => .ok ([], none)
  | entry :: rest => do
    match ← resolve locale entry.2 with
    | none => return ([], some entry)
    | some ch =>
      let (passed, stop) ← walk locale rest
      return ((entry, ch) :: passed, stop)

/-! ## Reading and replacing -/

/-- The text of the name in a buffer. -/
def decode (locale : Locale) (data : Bytes) : Except Fault Text := do
  let (passed, _) ← walk locale (unitsFrom locale data 0)
  return passed.map Prod.snd

/-- The text of the name in a buffer, refused if a dangling lead byte stops the reader. -/
def decodeChecked (locale : Locale) (data : Bytes) : Except Fault (Except NameError Text) := do
  let (passed, stop) ← walk locale (unitsFrom locale data 0)
  return match stop with
    | some (offset, .dangling _) => .error (.danglingLead offset)
    | _ => .ok (passed.map Prod.snd)

/-- The position of the first trash byte. -/
def trashStart (locale : Locale) (data : Bytes) : Except Fault Nat := do
  let (_, stop) ← walk locale (unitsFrom locale data 0)
  return match stop with
    | some (offset, unit) => offset + unit.width
    | none => data.length

/-- The positions of a single byte among units. -/
def positionsOf (point : UInt8) (units : List (Nat × CodeUnit)) : List Nat :=
  units.filterMap fun entry => if entry.2 = .single point then some entry.1 else none

/-- Collects the decimal points of the name, and then puts a period over each. -/
def replaceDecimalPoints (locale : Locale) (korean : Bool) (data : Bytes) :
    Except Fault (Bytes × Nat) :=
  match korean, locale.decimalPoint? with
  | false, some (point, period) => do
    let (passed, _) ← walk locale (unitsFrom locale data 0)
    let positions := positionsOf point (passed.map Prod.fst)
    let replaced ← positions.foldlM (fun buffer position => put buffer position period) data
    return (replaced, positions.length)
  | _, _ => .ok (data, 0)

/-! ## Writing -/

/-- Puts the bytes of a code into a buffer. -/
def putCode (buffer : Bytes) (cursor : Nat) : Code → Except Fault Bytes
  | .single byte => put buffer cursor byte
  | .double lead trail => do
    let buffer ← put buffer cursor lead
    put buffer (cursor + 1) trail

/-- Places characters from the cursor on: the buffer, the cursor behind the last code, the number
of characters so far, and what stopped the writer. -/
def place (locale : Locale) (buffer : Bytes) (cursor chars : Nat) :
    Text → Except Fault (Bytes × Nat × Nat × Option Truncation)
  | [] => .ok (buffer, cursor, chars, none)
  | ch :: rest =>
    match locale.codeOf? ch with
    | none => .ok (buffer, cursor, chars, some (.unmappable chars ch))
    | some code =>
      if buffer.length < cursor + code.width then
        .ok (buffer, cursor, chars, some (.bufferFull chars))
      else do
        let buffer ← putCode buffer cursor code
        place locale buffer (cursor + code.width) (chars + 1) rest

/-- Puts the terminator at the cursor if a byte is left for it: the buffer, and how many bytes are
written. -/
def close (buffer : Bytes) (cursor : Nat) : Except Fault (Bytes × Nat) :=
  if cursor < buffer.length then do
    let buffer ← put buffer cursor terminator
    return (buffer, cursor + 1)
  else return (buffer, cursor)

/-- Writes a text into a buffer, at most `maxChars` characters of it. -/
def encode (locale : Locale) (padding : Padding) (maxChars : Nat) (text : Text) (buffer : Bytes) :
    Except Fault (Bytes × Outcome) := do
  let (buffer, cursor, chars, truncation) ←
    place locale (padding.prepare buffer) 0 0 (text.take maxChars)
  let (buffer, len) ← close buffer cursor
  return (buffer, { len, chars, capped := text.length - maxChars, truncation })

end InPlace

/-! ## Keys -/

variable {locale : Locale}

/-- The single-byte table of either locale has a slot for every byte. -/
theorem Charset.size_singleCharset (locale : Locale) : locale.singleCharset.size = 256 := by
  cases locale with
  | japanese => exact length_page (by rw [List.length_map, length_kana]; omega)
  | international => exact length_page (by rw [List.length_map, length_western]; omega)

theorem Charset.size_extended : extended.size = 7936 := length_extendedSlots

theorem Charset.exists_lookup_eq_ok {charset : Charset} {key : Nat} (h : key < charset.size) :
    ∃ slot, charset.lookup key = .ok slot :=
  ⟨_, lookup_eq_ok_iff.mpr (List.getElem?_eq_getElem h)⟩

namespace CodeUnit

/-- The set in which the unit is looked up, if it is looked up at all. -/
def charset? (locale : Locale) : CodeUnit → Option Charset
  | .single _ => some locale.singleCharset
  | .double _ _ => some .extended
  | .dangling _ => none

/-- The key of a unit that a scan can yield lies inside its set. A lead byte is at most `0x1E`, and
the extended set has a page for each byte up to there. -/
theorem value_lt_size {unit : CodeUnit} {data : Bytes} (h : unit ∈ scan locale data) :
    ∀ charset ∈ unit.charset? locale, unit.value < charset.size := by
  intro charset hcharset
  cases unit with
  | single byte =>
    obtain rfl : locale.singleCharset = charset := Option.some.inj hcharset
    rw [Charset.size_singleCharset]
    exact byte.toNat_lt
  | double lead trail =>
    obtain rfl : Charset.extended = charset := Option.some.inj hcharset
    have hlead : locale.isLead lead = true := by
      rcases (isScan_scan locale data).isWhole_or_dangling h with hwhole | ⟨lead', hdangling⟩
      · exact hwhole
      · cases hdangling
    have hlt := (Charset.toNat_lt_of_isLead hlead).2
    have htrail : trail.toNat < 256 := trail.toNat_lt
    rw [Charset.size_extended]
    show 256 * lead.toNat + trail.toNat < 7936
    omega
  | dangling lead => cases hcharset

end CodeUnit

namespace InPlace

/-- Looking a unit of a buffer up never fails. -/
theorem resolve_eq {unit : CodeUnit} {data : Bytes} (h : unit ∈ scan locale data) :
    resolve locale unit = .ok (unit.char? locale) := by
  have hsize := CodeUnit.value_lt_size h
  have hmeaning : ∃ slot, unit.meaning locale = .ok slot := by
    cases unit with
    | single byte => exact Charset.exists_lookup_eq_ok (hsize _ rfl)
    | double lead trail => exact Charset.exists_lookup_eq_ok (hsize _ rfl)
    | dangling lead => exact ⟨none, rfl⟩
  obtain ⟨slot, hslot⟩ := hmeaning
  rw [resolve, CodeUnit.char?, hslot]
  rfl

/-! ## Units by position -/

/-- The units from an offset on are the unit there and those from its end on. -/
theorem unitsFrom_of_eq_some {data : Bytes} {offset : Nat} {unit : CodeUnit}
    (h : unitAt? locale data offset = some unit) :
    unitsFrom locale data offset =
      (offset, unit) :: unitsFrom locale data (offset + unit.width) := by
  rw [unitsFrom]
  split
  · next hnone => simp [h] at hnone
  · next unit' hsome =>
    obtain rfl : unit = unit' := Option.some.inj (h.symm.trans hsome)
    rfl

theorem unitsFrom_length (locale : Locale) (data : Bytes) :
    unitsFrom locale data data.length = [] := by
  have hnone : unitAt? locale data data.length = none := by
    rw [unitAt?, List.getElem?_eq_none (Nat.le_refl _)]
    rfl
  rw [unitsFrom]
  split
  · rfl
  · next hsome => simp [hnone] at hsome

/-- What stands in front of a position has no part in the unit there. -/
theorem unitAt?_append (front : Bytes) (byte : UInt8) (rest : Bytes) :
    unitAt? locale (front ++ byte :: rest) front.length =
      if locale.isLead byte then
        match rest.head? with
        | some trail => some (.double byte trail)
        | none => some (.dangling byte)
      else some (.single byte) := by
  have hbyte : (front ++ byte :: rest)[front.length]? = some byte := by
    rw [List.getElem?_append_right (Nat.le_refl _), Nat.sub_self]
    rfl
  have hnext : (front ++ byte :: rest)[front.length + 1]? = rest.head? := by
    rw [List.getElem?_append_right (Nat.le_add_right _ _), Nat.add_sub_cancel_left]
    cases rest <;> rfl
  rw [unitAt?, hbyte, hnext, Option.map_some]
  cases locale.isLead byte <;> cases rest <;> rfl

/-- A whole unit is found where its bytes stand, whatever stands around them. -/
theorem unitAt?_of_isWhole (front : Bytes) {unit : CodeUnit} (h : unit.isWhole locale = true)
    (rest : Bytes) : unitAt? locale (front ++ (unit.bytes ++ rest)) front.length = some unit := by
  cases unit with
  | single byte =>
    have hlead : locale.isLead byte = false := by simpa [CodeUnit.isWhole] using h
    rw [CodeUnit.bytes, List.singleton_append, unitAt?_append, hlead]
    rfl
  | double lead trail =>
    have hlead : locale.isLead lead = true := h
    rw [CodeUnit.bytes, List.cons_append, unitAt?_append, hlead]
    rfl
  | dangling lead => simp [CodeUnit.isWhole] at h

/-- The units of a scan are found one behind the other at the places where they stand. -/
theorem unitsFrom_of_isScan {units : List CodeUnit} (h : IsScan locale units) (front : Bytes) :
    unitsFrom locale (front ++ bytesOf units) front.length = located front.length units := by
  -- the front grows by every unit that is passed
  induction h generalizing front with
  | nil =>
    rw [bytesOf, List.flatMap_nil, List.append_nil]
    exact unitsFrom_length locale front
  | @dangling lead hlead =>
    have hunit : unitAt? locale (front ++ [lead]) front.length = some (.dangling lead) := by
      rw [unitAt?_append, hlead]
      rfl
    have hend := unitsFrom_length locale (front ++ [lead])
    rw [List.length_append] at hend
    show unitsFrom locale (front ++ [lead]) front.length = _
    rw [unitsFrom_of_eq_some hunit, located, located]
    exact congrArg _ hend
  | @cons unit units hwhole _ ih =>
    have hrest := ih (front ++ unit.bytes)
    rw [List.length_append, List.append_assoc] at hrest
    show unitsFrom locale (front ++ (unit.bytes ++ bytesOf units)) front.length = _
    rw [unitsFrom_of_eq_some (unitAt?_of_isWhole front hwhole (bytesOf units)), located]
    exact congrArg _ hrest

/-- Going from position to position meets the units of the scan where they stand. -/
theorem unitsFrom_zero (locale : Locale) (data : Bytes) :
    unitsFrom locale data 0 = located 0 (scan locale data) := by
  have hunits := unitsFrom_of_isScan (isScan_scan locale data) []
  rw [bytesOf_scan] at hunits
  exact hunits

/-- A unit that is met lies inside of the buffer, and its key inside of its set. -/
theorem inside_of_mem_unitsFrom {data : Bytes} {offset : Nat} {unit : CodeUnit}
    (h : (offset, unit) ∈ unitsFrom locale data 0) :
    offset + unit.width ≤ data.length ∧
      (∀ charset ∈ unit.charset? locale, unit.value < charset.size) ∧
      resolve locale unit = .ok (unit.char? locale) := by
  rw [unitsFrom_zero] at h
  have hunit := mem_of_mem_located h
  have hend := (bounds_of_mem_located h).2
  rw [Nat.zero_add, widthOf_scan] at hend
  exact ⟨hend, CodeUnit.value_lt_size hunit, resolve_eq hunit⟩

/-! ## Reading -/

theorem resolve_of_shows {unit : CodeUnit} {ch : Char} (h : unit.Shows locale ch) :
    resolve locale unit = .ok (some ch) := by
  rw [resolve, CodeUnit.char?_eq_some_iff.mp h.2]
  rfl

/-- A unit of a scan that is not readable is looked up without a fault and found empty. -/
theorem resolve_of_not_isReadable {unit : CodeUnit} {data : Bytes}
    (hmem : unit ∈ scan locale data) (h : unit.isReadable locale = false) :
    resolve locale unit = .ok none := by
  have hnone : unit.char? locale = none := by
    unfold CodeUnit.isReadable at h
    simpa using h
  rw [resolve_eq hmem, hnone]

/-- The walk goes through a piece of a name and on to what is behind it. -/
theorem walk_append {units : List CodeUnit} {text : Text}
    (h : List.Forall₂ (CodeUnit.Shows locale) units text) (start : Nat)
    (behind : List (Nat × CodeUnit)) :
    walk locale (located start units ++ behind) =
      (walk locale behind).map fun result =>
        ((located start units).zip text ++ result.1, result.2) := by
  induction h generalizing start with
  | nil =>
    rw [located, List.nil_append]
    cases walk locale behind <;> rfl
  | @cons unit ch units text hshows _ ih =>
    have hrest := ih (start + unit.width)
    rw [located, List.cons_append, walk, resolve_of_shows hshows]
    show (walk locale (located (start + unit.width) units ++ behind) >>= _) = _
    rw [hrest]
    cases walk locale behind <;> rfl

/-- Behind the name there is nothing, or a unit that stands for no character. -/
theorem unitsFrom_split (locale : Locale) (data : Bytes) :
    ∃ behind, unitsFrom locale data 0 =
        located 0 (nameUnits locale data) ++ located (widthOf (nameUnits locale data)) behind ∧
      data.length = widthOf (nameUnits locale data) + widthOf behind ∧
      stop? locale data = behind.head? ∧
      ∀ stop ∈ behind.head?, resolve locale stop = .ok none := by
  have hsplit := scan_eq_nameUnits_append locale data
  have hstop := List.head?_dropWhile_not (·.isReadable locale) (scan locale data)
  have hlength := widthOf_scan locale data
  generalize (scan locale data).dropWhile (·.isReadable locale) = behind at hsplit hstop
  refine ⟨behind, ?_, ?_, stop?_of_scan_eq hsplit, ?_⟩
  · rw [unitsFrom_zero, hsplit, located_append, Nat.zero_add]
  · rw [← hlength, hsplit, widthOf_append]
  · intro stop hmem
    rw [Option.mem_def.mp hmem] at hstop
    have hscan : stop ∈ scan locale data := by
      rw [hsplit]
      exact List.mem_append_right _ (List.mem_of_head? hmem)
    exact resolve_of_not_isReadable hscan (by simpa using hstop)

/-- The walk through a buffer passes the units of the name, which show its text, and is stopped
by the unit behind them. -/
theorem walk_unitsFrom (locale : Locale) (data : Bytes) :
    walk locale (unitsFrom locale data 0) =
      .ok ((located 0 (nameUnits locale data)).zip (SaveNames.decode locale data),
        (stop? locale data).map (widthOf (nameUnits locale data), ·)) := by
  obtain ⟨behind, hunits, -, hstop, hnone⟩ := unitsFrom_split locale data
  have hbehind : walk locale (located (widthOf (nameUnits locale data)) behind) =
      .ok ([], behind.head?.map (widthOf (nameUnits locale data), ·)) := by
    cases behind with
    | nil => rfl
    | cons stop behind =>
      rw [located, walk, hnone stop rfl]
      rfl
  rw [hunits, walk_append (forall₂_shows_nameUnits locale data), hbehind, hstop]
  show Except.ok (_ ++ [], _) = _
  rw [List.append_nil]

theorem length_located_nameUnits (locale : Locale) (data : Bytes) (start : Nat) :
    (located start (nameUnits locale data)).length = (SaveNames.decode locale data).length := by
  have hlength := congrArg List.length (map_snd_located start (nameUnits locale data))
  rw [List.length_map] at hlength
  rw [hlength]
  exact (forall₂_shows_nameUnits locale data).length_eq

theorem map_snd_zip_name (locale : Locale) (data : Bytes) :
    ((located 0 (nameUnits locale data)).zip (SaveNames.decode locale data)).map Prod.snd =
      SaveNames.decode locale data :=
  List.map_snd_zip (Nat.le_of_eq (length_located_nameUnits locale data 0).symm)

theorem map_fst_zip_name (locale : Locale) (data : Bytes) :
    ((located 0 (nameUnits locale data)).zip (SaveNames.decode locale data)).map Prod.fst =
      located 0 (nameUnits locale data) :=
  List.map_fst_zip (Nat.le_of_eq (length_located_nameUnits locale data 0))

/-- Decoding in place touches no byte outside the data and shows what the rules say. -/
theorem decode_eq (locale : Locale) (data : Bytes) :
    decode locale data = .ok (SaveNames.decode locale data) := by
  rw [decode, walk_unitsFrom]
  exact congrArg Except.ok (map_snd_zip_name locale data)

/-- Strict decoding in place touches no byte outside the data and answers as the rules say. -/
theorem decodeChecked_eq (locale : Locale) (data : Bytes) :
    decodeChecked locale data = .ok (SaveNames.decodeChecked locale data) := by
  have htext := map_snd_zip_name locale data
  rw [decodeChecked, walk_unitsFrom, SaveNames.decodeChecked]
  rcases stop? locale data with _ | _ | _ | _
  · exact congrArg (Except.ok ∘ Except.ok) htext
  · exact congrArg (Except.ok ∘ Except.ok) htext
  · exact congrArg (Except.ok ∘ Except.ok) htext
  · rfl

/-- Looking for the trash in place touches no byte outside the data and finds it where it starts. -/
theorem trashStart_eq (locale : Locale) (data : Bytes) :
    trashStart locale data = .ok (SaveNames.trashStart locale data) := by
  obtain ⟨behind, -, hlength, hstop, -⟩ := unitsFrom_split locale data
  rw [trashStart, walk_unitsFrom, SaveNames.trashStart, hstop]
  cases behind with
  | nil => exact congrArg Except.ok hlength
  | cons stop behind => rfl

/-- The trash begins inside the buffer, or where it ends. -/
theorem trashStart_le (locale : Locale) (data : Bytes) :
    SaveNames.trashStart locale data ≤ data.length := by
  obtain ⟨behind, -, hlength, hstop, -⟩ := unitsFrom_split locale data
  rw [SaveNames.trashStart, hstop, hlength]
  cases behind with
  | nil => exact Nat.le_refl _
  | cons stop behind =>
    rw [List.head?_cons, Option.map_some, Option.getD_some, widthOf_cons]
    omega

/-! ## Replacing decimal points -/

/-- A unit adds its own offset to the positions of a byte if it is this byte alone. -/
theorem positionsOf_located_cons (point : UInt8) (start : Nat) (unit : CodeUnit)
    (units : List CodeUnit) :
    positionsOf point (located start (unit :: units)) =
      if unit = .single point then
        start :: positionsOf point (located (start + unit.width) units)
      else positionsOf point (located (start + unit.width) units) := by
  rw [positionsOf, located, List.filterMap_cons]
  by_cases hpoint : unit = .single point
  · simp only [if_pos hpoint]
    rfl
  · simp only [if_neg hpoint]
    rfl

/-- A byte has one position for each time that it is a unit of its own. -/
theorem length_positionsOf (point : UInt8) (start : Nat) (units : List CodeUnit) :
    (positionsOf point (located start units)).length = units.count (.single point) := by
  induction units generalizing start with
  | nil => rfl
  | cons unit units ih =>
    rw [positionsOf_located_cons, List.count_cons]
    by_cases hpoint : unit = .single point
    · simp [hpoint, ih]
    · simp [hpoint, ih]

/-- A byte is put over the byte that it meets. -/
theorem put_append (front : Bytes) (old byte : UInt8) (rest : Bytes) :
    put (front ++ old :: rest) front.length byte = .ok (front ++ byte :: rest) := by
  have hlt : front.length < (front ++ old :: rest).length := by
    rw [List.length_append, List.length_cons]
    omega
  have hset : (front ++ old :: rest).set front.length byte = front ++ byte :: rest := by
    rw [List.set_append_right _ _ (Nat.le_refl _), Nat.sub_self, List.set_cons_zero]
  rw [put, if_pos hlt, hset]

/-- Putting a byte at the positions collected before replaces the units that stood there, and
moves no other. -/
theorem foldlM_put_positionsOf (point period : UInt8) (front : Bytes) (units : List CodeUnit)
    (rest : Bytes) :
    (positionsOf point (located front.length units)).foldlM
        (fun buffer position => put buffer position period) (front ++ bytesOf units ++ rest) =
      .ok (front ++ bytesOf (units.map (CodeUnit.replaceSingle point period)) ++ rest) := by
  -- the front takes in the replaced units, which are as wide as the old ones
  induction units generalizing front with
  | nil => rfl
  | cons unit units ih =>
    have hreplaced := ih (front ++ (unit.replaceSingle point period).bytes)
    have hwidth : (front ++ (unit.replaceSingle point period).bytes).length =
        front.length + unit.width := by
      rw [List.length_append]
      exact congrArg _ (CodeUnit.width_replaceSingle point period unit)
    rw [hwidth] at hreplaced
    have hbytes : front ++ bytesOf ((unit :: units).map (CodeUnit.replaceSingle point period)) ++
        rest = front ++ (unit.replaceSingle point period).bytes ++
          bytesOf (units.map (CodeUnit.replaceSingle point period)) ++ rest := by
      rw [List.append_assoc front (CodeUnit.bytes _)]
      rfl
    rw [positionsOf_located_cons, hbytes, ← hreplaced]
    by_cases hpoint : unit = .single point
    · subst hpoint
      have hput := put_append front point period (bytesOf units ++ rest)
      have hnew : (CodeUnit.single point).replaceSingle point period = .single period := if_pos rfl
      rw [if_pos rfl, List.foldlM_cons, hnew, List.append_assoc front]
      show (put (front ++ point :: (bytesOf units ++ rest)) front.length period >>= _) = _
      rw [hput, List.append_assoc, List.append_assoc]
      rfl
    · have hsame : unit.replaceSingle point period = unit := if_neg hpoint
      rw [if_neg hpoint, hsame, List.append_assoc front unit.bytes]
      rfl

/-- Replacing in place writes inside the data only and leaves the bytes that the rules say. -/
theorem replaceDecimalPoints_eq (locale : Locale) (korean : Bool) (data : Bytes) :
    replaceDecimalPoints locale korean data =
      .ok (SaveNames.replaceDecimalPoints locale korean data) := by
  by_cases hreplace : locale = .international ∧ korean = false
  · obtain ⟨rfl, rfl⟩ := hreplace
    have hput := foldlM_put_positionsOf 0xAF 0xAD [] (nameUnits .international data)
      (data.drop (widthOf (nameUnits .international data)))
    rw [List.length_nil, List.nil_append, List.nil_append, bytesOf_nameUnits_append_drop] at hput
    have hcount := length_positionsOf 0xAF 0 (nameUnits .international data)
    rw [SaveNames.replaceDecimalPoints_eq, ← hcount]
    simp only [replaceDecimalPoints, Locale.decimalPoint?, walk_unitsFrom]
    show (List.foldlM (m := Except Fault) _ data (positionsOf 0xAF (List.map Prod.fst _)) >>= _) = _
    rw [map_fst_zip_name, hput]
    rfl
  · rw [replaceDecimalPoints_of_ne hreplace]
    cases locale with
    | japanese => cases korean <;> rfl
    | international =>
      cases korean with
      | false => exact absurd ⟨rfl, rfl⟩ hreplace
      | true => rfl

/-! ## Writing -/

/-- A code that fits is put over the bytes that it meets, both of its bytes if it has two. -/
theorem putCode_append (written : Bytes) {rest : Bytes} {code : Code}
    (h : code.width ≤ rest.length) :
    putCode (written ++ rest) written.length code =
      .ok (written ++ code.bytes ++ rest.drop code.width) := by
  cases code with
  | single byte =>
    cases rest with
    | nil => exact absurd h (Nat.not_succ_le_zero 0)
    | cons old rest =>
      rw [putCode, put_append, List.append_assoc]
      rfl
  | double lead trail =>
    match rest, h with
    | old :: next :: rest, _ =>
      have htrail := put_append (written ++ [lead]) next trail rest
      rw [List.length_append, List.append_assoc] at htrail
      show (put (written ++ old :: next :: rest) written.length lead >>= _) = _
      rw [put_append, List.append_assoc]
      refine Eq.trans htrail ?_
      rw [List.append_assoc]
      rfl

/-- Without room for it, the second byte would fall outside. -/
example : putCode [0xFF] 0 (.double 0x0A 0x5F) = .error (.position 1 1) := by decide

/-- The writer places codes as long as they fit, from the cursor on. -/
theorem place_append (locale : Locale) (written rest : Bytes) (chars : Nat) (text : Text) :
    place locale (written ++ rest) written.length chars text =
      let placement := Placement.ofText locale chars rest.length text
      .ok (written ++ placement.bytes ++ rest.drop placement.bytes.length,
        written.length + placement.bytes.length, chars + placement.codes.length,
        placement.truncation) := by
  -- the written part takes in the code, and the room shrinks by as much
  induction text generalizing written rest chars with
  | nil => simp [place, Placement.ofText, Placement.bytes]
  | cons ch text ih =>
    rw [place, Placement.ofText]
    cases hcode : locale.codeOf? ch with
    | none => simp [Placement.bytes]
    | some code =>
      by_cases hwidth : code.width ≤ rest.length
      · have hnot : ¬(written ++ rest).length < written.length + code.width := by
          rw [List.length_append]
          omega
        have hrest := ih (written ++ code.bytes) (rest.drop code.width) (chars + 1)
        rw [List.length_append, List.length_drop] at hrest
        simp only [if_neg hnot, if_pos hwidth, putCode_append written hwidth]
        refine Eq.trans hrest ?_
        simp only [Placement.cons, Placement.bytes, List.flatMap_cons, List.length_append,
          List.length_cons, List.drop_drop, List.append_assoc, Nat.add_assoc]
        rw [Nat.add_comm 1]
        rfl
      · simp [hwidth, Placement.bytes]

/-- The terminator is put behind the written bytes, over the first of the others. -/
theorem close_append (written rest : Bytes) :
    close (written ++ rest) written.length =
      .ok (written ++ closeName rest, min (written.length + 1) (written ++ rest).length) := by
  cases rest with
  | nil =>
    rw [List.append_nil, close, if_neg (Nat.lt_irrefl _), closeName, List.append_nil,
      Nat.min_eq_right (Nat.le_succ _)]
    rfl
  | cons old rest =>
    have hlt : written.length < (written ++ old :: rest).length := by
      rw [List.length_append, List.length_cons]
      omega
    rw [close, if_pos hlt, put_append, closeName, Nat.min_eq_left hlt]
    rfl

/-- Closing a name in place writes the terminator where there is room for it, and leaves what is
behind. -/
theorem close_eq {codes prepared : Bytes} (h : codes.length ≤ prepared.length) :
    close (codes ++ prepared.drop codes.length) codes.length =
      .ok (terminated prepared.length codes ++
          prepared.drop (terminated prepared.length codes).length,
        (terminated prepared.length codes).length) := by
  have hsize : (codes ++ prepared.drop codes.length).length = prepared.length := by
    rw [List.length_append, List.length_drop]
    omega
  have hlen : (terminated prepared.length codes).length =
      min (codes.length + 1) prepared.length := by
    rw [terminated, List.length_take, List.length_append, Nat.min_comm]
    rfl
  rw [close_append, terminated_append_drop h, hsize, hlen]

/-- Encoding in place writes inside the buffer only and leaves the bytes that the rules say. -/
theorem encode_eq (locale : Locale) (padding : Padding) (maxChars : Nat) (text : Text)
    (buffer : Bytes) :
    encode locale padding maxChars text buffer =
      .ok (SaveNames.encode locale padding maxChars text buffer) := by
  have hlength := Padding.length_prepare padding buffer
  have hfits := (fits_placed locale maxChars buffer.length text).widthOf_le
  rw [widthOf, ← bytes_ofText, ← hlength] at hfits
  have hplace := place_append locale [] (padding.prepare buffer) 0 (text.take maxChars)
  have hclose := close_eq hfits
  simp only [List.nil_append, List.length_nil, Nat.zero_add] at hplace
  rw [encode, hplace]
  show (close _ _ >>= _) = _
  rw [hclose, SaveNames.encode, hlength]
  rfl

end InPlace

end SaveNames
