import Mathlib.Algebra.GroupWithZero.Nat
import SaveNames.Proofs.InPlace

/-!
# The units of a buffer partition it

A reader that takes one unit after the other sees only the byte at its position and the one behind
it (`InPlace.unitAt?`). **It comes to an end, and what it has met is the scan** (`iterates_iff`):
the first unit starts at the first byte, every other where the one in front of it ends, and the last
one ends with the buffer. No byte is left out and none is met twice, so the units written back are
the buffer (`units_partition`).
-/

namespace SaveNames

open InPlace (unitAt? unitsFrom unitsFrom_of_eq_some unitsFrom_zero)

variable {locale : Locale} {data : Bytes} {offset : Nat} {unit : CodeUnit}
  {entries : List (Nat × CodeUnit)}

/-! ## Taking one unit after the other -/

/-- From this position on, a reader meets these units and then none. -/
inductive Iterates (locale : Locale) (data : Bytes) : Nat → List (Nat × CodeUnit) → Prop
  | done {offset : Nat} (h : unitAt? locale data offset = none) : Iterates locale data offset []
  | next {offset : Nat} {unit : CodeUnit} {entries : List (Nat × CodeUnit)}
    (h : unitAt? locale data offset = some unit) :
    Iterates locale data (offset + unit.width) entries →
      Iterates locale data offset ((offset, unit) :: entries)

/-- The units from an offset on are what iteration finds there. -/
theorem iterates_unitsFrom (locale : Locale) (data : Bytes) (offset : Nat) :
    Iterates locale data offset (unitsFrom locale data offset) := by
  fun_induction unitsFrom locale data offset with
  | case1 offset h => exact .done h
  | case2 offset unit h ih => exact .next h ih

/-- There is one way to go through a buffer, and it ends. -/
theorem iterates_iff : Iterates locale data offset entries ↔
    entries = unitsFrom locale data offset := by
  constructor
  · intro h
    induction h with
    | done h =>
      rw [unitsFrom]
      split
      · rfl
      · next unit hsome => simp [h] at hsome
    | next h _ ih => rw [unitsFrom_of_eq_some h, ih]
  · rintro rfl
    exact iterates_unitsFrom locale data offset

/-- A unit that is met is the one at its position. -/
theorem Iterates.unitAt?_eq {start : Nat} (h : Iterates locale data start entries)
    (hmem : (offset, unit) ∈ entries) : unitAt? locale data offset = some unit := by
  induction h with
  | done => cases hmem
  | @next start first entries hfirst _ ih =>
    rcases List.mem_cons.mp hmem with heq | hrest
    · obtain ⟨rfl, rfl⟩ := Prod.mk.inj heq
      exact hfirst
    · exact ih hrest

/-- Iteration from the start finds the units of the scan. -/
theorem iterates_located_scan (locale : Locale) (data : Bytes) :
    Iterates locale data 0 (located 0 (scan locale data)) :=
  iterates_iff.mpr (unitsFrom_zero locale data).symm

/-- The unit that a scan has at an offset is the one that a look at this offset finds. -/
theorem unitAt?_of_mem_located (h : (offset, unit) ∈ located 0 (scan locale data)) :
    unitAt? locale data offset = some unit :=
  (iterates_located_scan locale data).unitAt?_eq h

/-! ## One unit -/

/-- A two-byte unit is a lead byte with a byte behind it. -/
theorem unitAt?_eq_double_iff {lead trail : UInt8} :
    unitAt? locale data offset = some (.double lead trail) ↔
      data[offset]? = some lead ∧ data[offset + 1]? = some trail ∧
        locale.isLead lead = true := by
  rw [unitAt?]
  cases hbyte : data[offset]? with
  | none => simp
  | some byte =>
    rw [Option.map_some, Option.some.injEq, Option.some.injEq]
    cases hlead : locale.isLead byte with
    | false =>
      constructor
      · intro h
        cases h
      · rintro ⟨rfl, -, hlead'⟩
        rw [hlead] at hlead'
        cases hlead'
    | true =>
      cases hnext : data[offset + 1]? with
      | none => simp
      | some next =>
        simp only [if_true, CodeUnit.double.injEq, Option.some.injEq]
        constructor
        · rintro ⟨rfl, rfl⟩
          exact ⟨rfl, rfl, hlead⟩
        · rintro ⟨rfl, rfl, -⟩
          exact ⟨rfl, rfl⟩

namespace CodeUnit

/-- The bytes of a unit written back from its value: of a two-byte unit the high one and then the
low one. -/
def writeBack : CodeUnit → Bytes
  | .single byte => [byte]
  | .double lead trail =>
    let value := (CodeUnit.double lead trail).value
    [UInt8.ofNat (value / 256), UInt8.ofNat (value % 256)]
  | .dangling lead => [lead]

/-- A unit that is written back gives the bytes it was read from. -/
theorem writeBack_eq_bytes (unit : CodeUnit) : unit.writeBack = unit.bytes := by
  cases unit with
  | single byte => rfl
  | double lead trail =>
    have htrail : trail.toNat < 256 := trail.toNat_lt
    have hhigh : (256 * lead.toNat + trail.toNat) / 256 = lead.toNat := by omega
    have hlow : (256 * lead.toNat + trail.toNat) % 256 = trail.toNat := by omega
    simp only [writeBack, value, hhigh, hlow, UInt8.ofNat_toNat]
    rfl
  | dangling lead => rfl

end CodeUnit

/-! ## All units -/

/-- Each unit starts where the one in front of it ends. -/
theorem isChain_located (start : Nat) (units : List CodeUnit) :
    (located start units).IsChain fun entry next => next.1 = entry.1 + entry.2.width := by
  induction units generalizing start with
  | nil => exact .nil
  | cons unit units ih =>
    cases units with
    | nil => exact .singleton _
    | cons next units => exact .cons_cons rfl (ih (start + unit.width))

theorem sum_width_located (start : Nat) (units : List CodeUnit) :
    ((located start units).map fun entry => entry.2.width).sum = widthOf units := by
  induction units generalizing start with
  | nil => rfl
  | cons unit units ih => rw [located, List.map_cons, List.sum_cons, ih, widthOf_cons]

/-- Writing back the units of a list, wherever they stand, gives their bytes in a row. -/
theorem flatMap_writeBack_located (start : Nat) (units : List CodeUnit) :
    (located start units).flatMap (fun entry => entry.2.writeBack) = bytesOf units := by
  simp only [CodeUnit.writeBack_eq_bytes]
  rw [bytesOf, ← map_snd_located start units, List.flatMap_map, map_snd_located]

/-- Only the last unit can lack a byte. -/
theorem eq_nil_of_dangling {lead : UInt8} {front behind : List (Nat × CodeUnit)}
    (h : located 0 (scan locale data) = front ++ (offset, .dangling lead) :: behind) :
    behind = [] := by
  have hunits := congrArg (List.map Prod.snd) h
  rw [map_snd_located, List.map_append, List.map_cons] at hunits
  have hscan := isScan_scan locale data
  rw [hunits] at hscan
  generalize hbehind : behind.map Prod.snd = units at hscan
  cases hscan.of_append with
  | dangling => exact List.map_eq_nil_iff.mp hbehind
  | cons hwhole => cases hwhole

/-- No unit starts at the second byte of another one. -/
theorem not_mem_located_trail {lead trail : UInt8}
    (h : (offset, .double lead trail) ∈ located 0 (scan locale data)) (unit : CodeUnit) :
    (offset + 1, unit) ∉ located 0 (scan locale data) := by
  intro hmem
  have hle := add_width_le_of_mem_located h hmem (Nat.lt_succ_self offset)
  have hwidth : (CodeUnit.double lead trail).width = 2 := rfl
  omega

/-- Going through a buffer. A reader that takes one unit after the other comes to an end, and there
is one result. The first unit starts at the first byte, every other where the one in front of it
ends; the widths add up to the length of the buffer, and the units written back one behind the other
are the buffer. A two-byte unit stands just where a unit starts whose byte is a lead byte with a
byte behind it; a dangling one can only be the last; and no unit starts at the second byte of a
two-byte one. -/
theorem units_partition (locale : Locale) (data : Bytes) :
    ∃ entries, Iterates locale data 0 entries ∧
      (∀ entries', Iterates locale data 0 entries' → entries' = entries) ∧
      entries = located 0 (scan locale data) ∧
      (∀ entry ∈ entries.head?, entry.1 = 0) ∧
      entries.IsChain (fun entry next => next.1 = entry.1 + entry.2.width) ∧
      (entries.map fun entry => entry.2.width).sum = data.length ∧
      (entries.flatMap fun entry => entry.2.writeBack) = data ∧
      (∀ offset lead trail, (offset, .double lead trail) ∈ entries ↔
        (∃ unit, (offset, unit) ∈ entries) ∧
          data[offset]? = some lead ∧ data[offset + 1]? = some trail ∧
            locale.isLead lead = true) ∧
      (∀ front offset lead behind, entries = front ++ (offset, .dangling lead) :: behind →
        behind = []) ∧
      ∀ offset lead trail, (offset, .double lead trail) ∈ entries →
        ∀ unit, (offset + 1, unit) ∉ entries := by
  refine ⟨located 0 (scan locale data), iterates_located_scan locale data, ?_, rfl, ?_,
    isChain_located 0 _, ?_, ?_, ?_, ?_, ?_⟩
  · intro entries hentries
    rw [iterates_iff.mp hentries, unitsFrom_zero]
  · cases scan locale data with
    | nil => simp [located]
    | cons unit units => simp [located]
  · rw [sum_width_located, widthOf_scan]
  · rw [flatMap_writeBack_located, bytesOf_scan]
  · intro offset lead trail
    rw [← unitAt?_eq_double_iff]
    constructor
    · intro h
      exact ⟨⟨_, h⟩, unitAt?_of_mem_located h⟩
    · rintro ⟨⟨unit, hmem⟩, hdouble⟩
      -- the unit that starts here is the one at this position
      obtain rfl := Option.some.inj ((unitAt?_of_mem_located hmem).symm.trans hdouble)
      exact hmem
  · intro front offset lead behind hsplit
    exact eq_nil_of_dangling hsplit
  · intro offset lead trail hmem
    exact not_mem_located_trail hmem

end SaveNames
