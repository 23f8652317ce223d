import SaveNames.CodeUnit

/-!
# Scanning a buffer piece by piece

A scan has no memory: whatever stands behind a whole unit, the scan yields the unit and starts
afresh behind it. So a buffer that begins with the bytes of whole units scans as these units
and then as its rest (`scan_bytesOf_append`), and only the end of a buffer can cut a unit
(`IsScan`, `isScan_scan`).
-/

namespace SaveNames

variable {locale : Locale}

namespace CodeUnit

/-- Whether the unit has all its bytes, so that nothing behind it can change how they are
read. -/
def isWhole (locale : Locale) : CodeUnit → Bool
  | .single byte => !locale.isLead byte
  | .double lead _ => locale.isLead lead
  | .dangling _ => false

theorem width_pos (unit : CodeUnit) : 0 < unit.width := by
  cases unit <;> simp [width, bytes]

end CodeUnit

/-! ## Bytes and widths of unit sequences -/

theorem bytesOf_append (units units' : List CodeUnit) :
    bytesOf (units ++ units') = bytesOf units ++ bytesOf units' := List.flatMap_append

theorem widthOf_append (units units' : List CodeUnit) :
    widthOf (units ++ units') = widthOf units + widthOf units' := by
  rw [widthOf, bytesOf_append, List.length_append]
  rfl

theorem widthOf_cons (unit : CodeUnit) (units : List CodeUnit) :
    widthOf (unit :: units) = unit.width + widthOf units := by
  rw [widthOf, bytesOf, List.flatMap_cons, List.length_append]
  rfl

/-- The widths of the units add up to the length of the buffer. -/
theorem widthOf_scan (locale : Locale) (data : Bytes) :
    widthOf (scan locale data) = data.length := by
  rw [widthOf, bytesOf_scan]

/-- Every unit covers a byte at least. -/
theorem length_le_widthOf (units : List CodeUnit) : units.length ≤ widthOf units := by
  induction units with
  | nil => exact Nat.zero_le _
  | cons unit units ih =>
    have hpos := unit.width_pos
    rw [List.length_cons, widthOf_cons]
    omega

theorem eq_nil_of_bytesOf_eq_nil {units : List CodeUnit} (h : bytesOf units = []) :
    units = [] := by
  have hle := length_le_widthOf units
  rw [widthOf, h] at hle
  exact List.eq_nil_of_length_eq_zero (Nat.le_zero.mp hle)

/-! ## Whole units -/

/-- A whole unit in front is scanned first, whatever stands behind it. -/
theorem scan_bytes_append {unit : CodeUnit} (h : unit.isWhole locale = true) (rest : Bytes) :
    scan locale (unit.bytes ++ rest) = unit :: scan locale rest := by
  cases unit with
  | single byte =>
    have hlead : locale.isLead byte = false := by simpa [CodeUnit.isWhole] using h
    cases rest <;> simp [CodeUnit.bytes, scan, hlead]
  | double lead trail =>
    have hlead : locale.isLead lead = true := h
    simp [CodeUnit.bytes, scan, hlead]
  | dangling lead => simp [CodeUnit.isWhole] at h

/-- A scan yields whole units as they were put together and goes on with what stands behind
them. -/
theorem scan_bytesOf_append {units : List CodeUnit}
    (h : ∀ unit ∈ units, unit.isWhole locale = true) (rest : Bytes) :
    scan locale (bytesOf units ++ rest) = units ++ scan locale rest := by
  induction units with
  | nil => rfl
  | cons unit units ih =>
    have hunit : unit.isWhole locale = true := h unit List.mem_cons_self
    have hunits := ih fun unit hmem => h unit (List.mem_cons_of_mem _ hmem)
    rw [bytesOf, List.flatMap_cons, List.append_assoc, scan_bytes_append hunit,
      List.cons_append]
    exact congrArg _ hunits

/-! ## What a scan yields -/

/-- Whole units, and behind them one lead byte at most that the end of the buffer has cut. -/
inductive IsScan (locale : Locale) : List CodeUnit → Prop
  | nil : IsScan locale []
  | dangling {lead : UInt8} (h : locale.isLead lead = true) : IsScan locale [.dangling lead]
  | cons {unit : CodeUnit} {units : List CodeUnit} (h : unit.isWhole locale = true) :
    IsScan locale units → IsScan locale (unit :: units)

/-- The units of every buffer are those of a scan. -/
theorem isScan_scan (locale : Locale) (data : Bytes) : IsScan locale (scan locale data) := by
  fun_induction scan locale data with
  | case1 => exact .nil
  | case2 byte hlead => exact .dangling hlead
  | case3 byte hlead => exact .cons (by simpa [CodeUnit.isWhole] using hlead) .nil
  | case4 byte next rest hlead ih => exact .cons hlead ih
  | case5 byte next rest hlead ih => exact .cons (by simpa [CodeUnit.isWhole] using hlead) ih

namespace IsScan

/-- The last units of a scan are a scan of their own. -/
theorem of_append {front behind : List CodeUnit} (h : IsScan locale (front ++ behind)) :
    IsScan locale behind := by
  induction front with
  | nil => exact h
  | cons unit front ih =>
    apply ih
    rw [List.cons_append] at h
    generalize front ++ behind = rest at h
    cases h with
    | dangling => exact .nil
    | cons hwhole hrest => exact hrest

/-- A unit of a scan is whole or a lead byte that was cut off. -/
theorem isWhole_or_dangling {unit : CodeUnit} {units : List CodeUnit} (h : IsScan locale units)
    (hmem : unit ∈ units) : unit.isWhole locale = true ∨ ∃ lead, unit = .dangling lead := by
  obtain ⟨front, behind, rfl⟩ := List.mem_iff_append.mp hmem
  cases h.of_append with
  | dangling => exact .inr ⟨_, rfl⟩
  | cons hwhole => exact .inl hwhole

end IsScan

/-- A lead byte is no unit of its own, unless it is cut off. -/
theorem eq_dangling_of_mem_scan {unit : CodeUnit} {lead : UInt8} {data : Bytes}
    (hmem : unit ∈ scan locale data) (hbytes : unit.bytes = [lead])
    (hlead : locale.isLead lead = true) : unit = .dangling lead := by
  rcases (isScan_scan locale data).isWhole_or_dangling hmem with hwhole | ⟨lead', rfl⟩
  · cases unit with
    | single byte =>
      obtain rfl : byte = lead := List.singleton_inj.mp hbytes
      simp [CodeUnit.isWhole, hlead] at hwhole
    | double lead' trail => simp [CodeUnit.bytes] at hbytes
    | dangling lead' => simp [CodeUnit.isWhole] at hwhole
  · rw [List.singleton_inj.mp hbytes]

/-! ## Positions of units -/

/-- The units behind others stand where these end. -/
theorem located_append (start : Nat) (units units' : List CodeUnit) :
    located start (units ++ units') =
      located start units ++ located (start + widthOf units) units' := by
  induction units generalizing start with
  | nil => rfl
  | cons unit units ih =>
    rw [List.cons_append, located, ih, located, widthOf_cons, List.cons_append, Nat.add_assoc]

/-- A unit stands behind the bytes of all the units in front of it. -/
theorem mem_located_iff {start offset : Nat} {unit : CodeUnit} {units : List CodeUnit} :
    (offset, unit) ∈ located start units ↔
      ∃ front behind, units = front ++ unit :: behind ∧ offset = start + widthOf front := by
  constructor
  · intro h
    induction units generalizing start with
    | nil => simp [located] at h
    | cons first units ih =>
      rcases List.mem_cons.mp h with heq | hmem
      · obtain ⟨rfl, rfl⟩ := Prod.mk.inj heq
        exact ⟨[], units, rfl, rfl⟩
      · obtain ⟨front, behind, rfl, rfl⟩ := ih hmem
        exact ⟨first :: front, behind, rfl, by rw [widthOf_cons, Nat.add_assoc]⟩
  · rintro ⟨front, behind, rfl, rfl⟩
    rw [located_append, located]
    exact List.mem_append_right _ List.mem_cons_self

theorem mem_of_mem_located {start offset : Nat} {unit : CodeUnit} {units : List CodeUnit}
    (h : (offset, unit) ∈ located start units) : unit ∈ units := by
  obtain ⟨front, behind, rfl, -⟩ := mem_located_iff.mp h
  exact List.mem_append_right _ List.mem_cons_self

/-- A unit stands within the bytes of its sequence. -/
theorem bounds_of_mem_located {start offset : Nat} {unit : CodeUnit} {units : List CodeUnit}
    (h : (offset, unit) ∈ located start units) :
    start ≤ offset ∧ offset + unit.width ≤ start + widthOf units := by
  obtain ⟨front, behind, rfl, rfl⟩ := mem_located_iff.mp h
  rw [widthOf_append, widthOf_cons]
  omega

/-- No unit starts before all the units in front of it have ended. -/
theorem pairwise_located (start : Nat) (units : List CodeUnit) :
    (located start units).Pairwise fun entry entry' => entry.1 + entry.2.width ≤ entry'.1 := by
  induction units generalizing start with
  | nil => exact .nil
  | cons unit units ih =>
    rw [located, List.pairwise_cons]
    refine ⟨fun entry hmem => ?_, ih _⟩
    exact (bounds_of_mem_located hmem).1

/-- No unit starts inside another one. -/
theorem add_width_le_of_mem_located {start offset offset' : Nat} {unit unit' : CodeUnit}
    {units : List CodeUnit} (h : (offset, unit) ∈ located start units)
    (h' : (offset', unit') ∈ located start units) (hlt : offset < offset') :
    offset + unit.width ≤ offset' := by
  obtain ⟨front, behind, rfl, rfl⟩ := mem_located_iff.mp h
  rw [located_append, located, List.mem_append, List.mem_cons] at h'
  rcases h' with hfront | hself | hbehind
  · have hend := (bounds_of_mem_located hfront).2
    have hpos := unit'.width_pos
    omega
  · have hsame := (Prod.mk.inj hself).1
    omega
  · exact (bounds_of_mem_located hbehind).1

theorem map_snd_located (start : Nat) (units : List CodeUnit) :
    (located start units).map Prod.snd = units := by
  induction units generalizing start with
  | nil => rfl
  | cons unit units ih => rw [located, List.map_cons, ih]

/-- Units of the same widths stand in the same positions. -/
theorem located_map {f : CodeUnit → CodeUnit} (hf : ∀ unit, (f unit).width = unit.width)
    (start : Nat) (units : List CodeUnit) :
    located start (units.map f) = (located start units).map (Prod.map id f) := by
  induction units generalizing start with
  | nil => rfl
  | cons unit units ih =>
    rw [List.map_cons, located, located, List.map_cons, hf, ih]
    rfl

/-- A unit begins with the byte at its offset. -/
theorem getElem?_bytesOf_of_mem_located {offset : Nat} {unit : CodeUnit} {units : List CodeUnit}
    (h : (offset, unit) ∈ located 0 units) : (bytesOf units)[offset]? = unit.bytes.head? := by
  obtain ⟨front, behind, rfl, hoffset⟩ := mem_located_iff.mp h
  have hlength : (bytesOf front).length = offset := by
    rw [hoffset, Nat.zero_add]
    rfl
  rw [bytesOf_append, List.getElem?_append_right (by omega), hlength, Nat.sub_self]
  cases unit <;> rfl

/-- A unit that starts at the last byte is the last unit, and the byte is all of it. -/
theorem scan_eq_of_mem_located_last {unit : CodeUnit} {bytes : Bytes} {last : UInt8}
    (h : (bytes.length, unit) ∈ located 0 (scan locale (bytes ++ [last]))) :
    ∃ front, scan locale (bytes ++ [last]) = front ++ [unit] ∧ unit.bytes = [last] ∧
      widthOf front = bytes.length := by
  obtain ⟨front, behind, hscan, hoffset⟩ := mem_located_iff.mp h
  rw [Nat.zero_add] at hoffset
  have hdata : bytes ++ [last] = bytesOf front ++ (unit.bytes ++ bytesOf behind) := by
    rw [← bytesOf_scan locale (bytes ++ [last]), hscan, bytesOf_append]
    rfl
  obtain ⟨-, hlast⟩ := List.append_inj hdata hoffset
  rcases List.append_eq_singleton_iff.mp hlast.symm with ⟨hempty, -⟩ | ⟨hbytes, hbehind⟩
  · have hpos := unit.width_pos
    rw [CodeUnit.width, hempty] at hpos
    exact absurd hpos (Nat.lt_irrefl 0)
  · rw [eq_nil_of_bytesOf_eq_nil hbehind] at hscan
    exact ⟨front, hscan, hbytes, hoffset.symm⟩

end SaveNames
