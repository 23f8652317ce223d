import Mathlib.Algebra.Group.Nat.Even
import SaveNames.Proofs.Partition

/-!
# Where units start

A lead byte takes the byte behind it, even if that is a lead byte too. So whether a unit starts at a
position seems to depend on everything in front of it. **It depends on the lead bytes directly in
front of it alone, and of these only on whether their number is even**
(`startsUnit_iff_even_leadRun`). In particular a unit starts behind every byte that is no lead byte:
there a scan is in step again, whatever came before (`unit_starts`).
-/

namespace SaveNames

variable {locale : Locale} {data : Bytes} {i : Nat}

/-- A unit of the buffer starts at this position. -/
def StartsUnit (locale : Locale) (data : Bytes) (i : Nat) : Prop :=
  ∃ unit, (i, unit) ∈ located 0 (scan locale data)

/-- The number of lead bytes that stand directly in front of a position. -/
def leadRun (locale : Locale) (data : Bytes) (i : Nat) : Nat :=
  ((data.take i).reverse.takeWhile locale.isLead).length

/-! ## Units next to each other -/

theorem CodeUnit.width_le_two (unit : CodeUnit) : unit.width ≤ 2 := by
  cases unit <;> simp [width, bytes]

/-- Every byte belongs to a unit. -/
theorem exists_mem_located_covering {start : Nat} {units : List CodeUnit} (hstart : start ≤ i)
    (hend : i < start + widthOf units) :
    ∃ entry ∈ located start units, entry.1 ≤ i ∧ i < entry.1 + entry.2.width := by
  induction units generalizing start with
  | nil =>
    rw [show widthOf [] = 0 from rfl] at hend
    omega
  | cons unit units ih =>
    rw [widthOf_cons] at hend
    by_cases hfirst : i < start + unit.width
    · exact ⟨(start, unit), List.mem_cons_self, hstart, hfirst⟩
    · have hbehind : start + unit.width ≤ i := by omega
      obtain ⟨entry, hmem, hcovers⟩ := ih hbehind (by omega)
      exact ⟨entry, List.mem_cons_of_mem _ hmem, hcovers⟩

/-- Where a unit ends inside of the buffer, another one starts. -/
theorem startsUnit_add_width {offset : Nat} {unit : CodeUnit}
    (hmem : (offset, unit) ∈ located 0 (scan locale data))
    (hend : offset + unit.width < data.length) :
    StartsUnit locale data (offset + unit.width) := by
  rw [← widthOf_scan locale data] at hend
  obtain ⟨front, behind, hscan, hoffset⟩ := mem_located_iff.mp hmem
  rw [hscan, widthOf_append, widthOf_cons] at hend
  cases behind with
  | nil =>
    rw [show widthOf [] = 0 from rfl] at hend
    omega
  | cons next behind =>
    refine ⟨next, mem_located_iff.mpr ⟨front ++ [unit], behind, by simp [hscan], ?_⟩⟩
    rw [widthOf_append, widthOf_cons, hoffset, Nat.add_assoc]
    rfl

/-- A unit starts at the first byte of a buffer. -/
theorem startsUnit_zero (h : 0 < data.length) : StartsUnit locale data 0 := by
  rw [← widthOf_scan locale data] at h
  obtain ⟨⟨offset, unit⟩, hmem, hle, -⟩ :=
    exists_mem_located_covering (Nat.le_refl 0) (by rwa [Nat.zero_add])
  obtain rfl : offset = 0 := Nat.le_zero.mp hle
  exact ⟨unit, hmem⟩

/-- A unit starts behind a byte, unless a unit starts at the byte and the byte is a lead byte. -/
theorem startsUnit_succ_iff {byte : UInt8} (hbyte : data[i]? = some byte)
    (hend : i + 1 < data.length) :
    StartsUnit locale data (i + 1) ↔
      ¬(StartsUnit locale data i ∧ locale.isLead byte = true) := by
  constructor
  · -- a lead byte at the start of a unit takes the byte behind it
    rintro ⟨next, hnext⟩ ⟨⟨unit, hunit⟩, hlead⟩
    have htrail : data[i + 1]? = some data[i + 1] := List.getElem?_eq_getElem hend
    have hdouble := unitAt?_eq_double_iff.mpr ⟨hbyte, htrail, hlead⟩
    obtain rfl := Option.some.inj ((unitAt?_of_mem_located hunit).symm.trans hdouble)
    exact not_mem_located_trail hunit next hnext
  · intro h
    by_cases hstarts : StartsUnit locale data i
    · have hlead : locale.isLead byte = false := by simpa [hstarts] using h
      obtain ⟨unit, hunit⟩ := hstarts
      have hsingle : unit = .single byte := by
        have hat := unitAt?_of_mem_located hunit
        rw [InPlace.unitAt?, hbyte, Option.map_some, Option.some.injEq, hlead] at hat
        exact hat.symm
      rw [hsingle] at hunit
      exact startsUnit_add_width hunit hend
    · -- the byte is the second one of the unit that it belongs to
      have hcovered : i < 0 + widthOf (scan locale data) := by
        rw [widthOf_scan]
        omega
      obtain ⟨⟨offset, unit⟩, hmem, hle, hlt⟩ :=
        exists_mem_located_covering (Nat.zero_le i) hcovered
      have hne : offset ≠ i := by
        rintro rfl
        exact hstarts ⟨unit, hmem⟩
      have hwidth := unit.width_le_two
      have hlast : offset + unit.width = i + 1 := by
        simp only at hle hlt
        omega
      have hnext := startsUnit_add_width hmem (by omega)
      rwa [hlast] at hnext

/-! ## The run of lead bytes -/

theorem leadRun_zero (locale : Locale) (data : Bytes) : leadRun locale data 0 = 0 := by
  rw [leadRun, List.take_zero]
  rfl

/-- A lead byte makes the run in front of the next position longer by one, and any other byte ends
it. -/
theorem leadRun_succ {byte : UInt8} (hbyte : data[i]? = some byte) :
    leadRun locale data (i + 1) = if locale.isLead byte then leadRun locale data i + 1 else 0 := by
  have htake : (data.take (i + 1)).reverse = byte :: (data.take i).reverse := by
    rw [List.take_add_one, hbyte, List.reverse_append]
    rfl
  rw [leadRun, htake, List.takeWhile_cons]
  split
  · rw [List.length_cons, leadRun]
  · rfl

/-- There are no lead bytes in Japanese buffers. -/
theorem leadRun_japanese (data : Bytes) (i : Nat) : leadRun .japanese data i = 0 := by
  rw [leadRun, List.takeWhile_eq_nil_iff.mpr]
  · rfl
  · intro _
    simp [Locale.isLead]

/-- A unit starts where an even number of lead bytes stands directly in front. -/
theorem startsUnit_iff_even_leadRun (h : i < data.length) :
    StartsUnit locale data i ↔ Even (leadRun locale data i) := by
  induction i with
  | zero =>
    rw [leadRun_zero]
    exact iff_of_true (startsUnit_zero h) Even.zero
  | succ i ih =>
    -- a lead byte turns the answer over and makes the run longer by one, any other byte ends it
    have hbyte : data[i]? = some data[i] := List.getElem?_eq_getElem (by omega)
    rw [startsUnit_succ_iff hbyte h, leadRun_succ hbyte, ih (by omega)]
    cases locale.isLead data[i] with
    | false => simp
    | true => simp [Nat.even_add_one]

/-- A unit starts behind every byte that is no lead byte. -/
theorem startsUnit_succ_of_not_isLead {byte : UInt8} (hbyte : data[i]? = some byte)
    (hlead : locale.isLead byte = false) (hend : i + 1 < data.length) :
    StartsUnit locale data (i + 1) := by
  rw [startsUnit_succ_iff hbyte hend, hlead]
  simp

/-! ## In step again -/

/-- Only the last unit of a scan can be a cut one. -/
theorem IsScan.isWhole_of_mem_front {front behind : List CodeUnit} {unit : CodeUnit}
    (h : IsScan locale (front ++ unit :: behind)) :
    ∀ earlier ∈ front, earlier.isWhole locale = true := by
  induction front with
  | nil => simp
  | cons first front ih =>
    rw [List.cons_append] at h
    generalize hrest : front ++ unit :: behind = rest at h
    cases h with
    | dangling => simp at hrest
    | cons hwhole hscan => exact List.forall_mem_cons.mpr ⟨hwhole, ih (hrest ▸ hscan)⟩

/-- From the start of a unit on, the units are those of the rest of the buffer. -/
theorem filter_located_of_startsUnit (h : StartsUnit locale data i) :
    (located 0 (scan locale data)).filter (fun entry => i ≤ entry.1) =
      located i (scan locale (data.drop i)) := by
  obtain ⟨unit, hmem⟩ := h
  obtain ⟨front, behind, hscan, hoffset⟩ := mem_located_iff.mp hmem
  rw [Nat.zero_add] at hoffset
  have hdata : data = bytesOf front ++ bytesOf (unit :: behind) := by
    rw [← bytesOf_append, ← hscan, bytesOf_scan]
  have hdrop : data.drop i = bytesOf (unit :: behind) := by
    rw [hoffset, widthOf, hdata, List.drop_left]
  have hwhole : ∀ earlier ∈ front, earlier.isWhole locale = true := by
    have hscanned := isScan_scan locale data
    rw [hscan] at hscanned
    exact hscanned.isWhole_of_mem_front
  have hrest : scan locale (bytesOf (unit :: behind)) = unit :: behind := by
    have happend := scan_bytesOf_append hwhole (bytesOf (unit :: behind))
    rw [← hdata, hscan] at happend
    exact (List.append_cancel_left happend).symm
  -- all units in front of the one at this position start before it, and the others do not
  have hfront : (located 0 front).filter (fun entry => i ≤ entry.1) = [] := by
    rw [List.filter_eq_nil_iff]
    rintro ⟨offset, unit⟩ hentry
    have hbefore := (bounds_of_mem_located hentry).2
    have hpos := unit.width_pos
    simp only [decide_eq_true_eq]
    omega
  have hbehind : (located i (unit :: behind)).filter (fun entry => i ≤ entry.1) =
      located i (unit :: behind) := by
    rw [List.filter_eq_self]
    rintro ⟨offset, unit⟩ hentry
    simpa using (bounds_of_mem_located hentry).1
  rw [hdrop, hrest, hscan, located_append, Nat.zero_add, ← hoffset, List.filter_append, hfront,
    hbehind, List.nil_append]

/-- The units behind a byte that is no lead byte are those of the rest of the buffer. -/
theorem filter_located_behind {byte : UInt8} (hbyte : data[i]? = some byte)
    (hlead : locale.isLead byte = false) :
    (located 0 (scan locale data)).filter (fun entry => i + 1 ≤ entry.1) =
      located (i + 1) (scan locale (data.drop (i + 1))) := by
  by_cases hend : i + 1 < data.length
  · exact filter_located_of_startsUnit (startsUnit_succ_of_not_isLead hbyte hlead hend)
  · -- nothing is left behind the last byte
    have hdrop : data.drop (i + 1) = [] := List.drop_eq_nil_of_le (by omega)
    rw [hdrop, scan, located, List.filter_eq_nil_iff]
    rintro ⟨offset, unit⟩ hentry
    have hinside := (bounds_of_mem_located hentry).2
    rw [widthOf_scan] at hinside
    have hpos := unit.width_pos
    simp only [decide_eq_true_eq]
    omega

/-- Where the units of a buffer start. A unit starts at a position if and only if the number of lead
bytes directly in front of it is even; in Japanese buffers one starts at every position. So one
starts behind every byte that is no lead byte; and if two buffers have the same bytes from such a
byte on, and so the same length, they have the same units behind it. -/
theorem unit_starts (locale : Locale) (data : Bytes) :
    (∀ i < data.length, StartsUnit locale data i ↔ Even (leadRun locale data i)) ∧
      (locale = .japanese → ∀ i < data.length, StartsUnit locale data i) ∧
      (∀ i byte, i + 1 < data.length → data[i]? = some byte → locale.isLead byte = false →
        StartsUnit locale data (i + 1)) ∧
      ∀ data' j byte, data'.drop j = data.drop j → data[j]? = some byte →
        locale.isLead byte = false →
          (located 0 (scan locale data')).filter (fun entry => j + 1 ≤ entry.1) =
            (located 0 (scan locale data)).filter (fun entry => j + 1 ≤ entry.1) := by
  refine ⟨fun i hi => startsUnit_iff_even_leadRun hi, ?_, ?_, ?_⟩
  · rintro rfl i hi
    rw [startsUnit_iff_even_leadRun hi, leadRun_japanese]
    exact Even.zero
  · intro i byte hend hbyte hlead
    exact startsUnit_succ_of_not_isLead hbyte hlead hend
  · intro data' j byte hdrop hbyte hlead
    have hbyte' : data'[j]? = some byte := by
      rw [← List.head?_drop, hdrop, List.head?_drop]
      exact hbyte
    have hdrop' : data'.drop (j + 1) = data.drop (j + 1) := by
      rw [← List.drop_drop, hdrop, List.drop_drop]
    rw [filter_located_behind hbyte' hlead, filter_located_behind hbyte hlead, hdrop']

end SaveNames
