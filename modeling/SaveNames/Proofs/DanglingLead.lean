import SaveNames.Proofs.Concatenation

/-!
# Names that end in the middle of a character

The checked reader refuses a buffer in one case only: **its last byte is a lead byte, and a reader
gets there** (`ReachesLead`). A lead byte in the last position is harmless if it is the trail byte
of the unit in front of it, or if something stops the reader before. So the offset in the error
says nothing but the length of the buffer, and one more byte behind the buffer takes the error
away or moves it. In all other cases both readers find the same text (`decodeChecked_dichotomy`).
-/

namespace SaveNames

variable {locale : Locale} {data : Bytes} {lead : UInt8}

/-- A reader comes to the last byte of the buffer, and finds a lead byte there. -/
structure ReachesLead (locale : Locale) (data : Bytes) (lead : UInt8) : Prop where
  /-- The lead byte is the last byte. -/
  getLast? : data.getLast? = some lead
  isLead : locale.isLead lead = true
  /-- It is a unit of its own, and not the trail byte of another one. -/
  exists_unit : ∃ unit, (data.length - 1, unit) ∈ located 0 (scan locale data)
  /-- No unit in front of it stops the reader. -/
  isReadable : ∀ offset unit, (offset, unit) ∈ located 0 (scan locale data) →
    offset < data.length - 1 → unit.isReadable locale = true

/-! ## The last unit -/

section Cut

variable (h : scan locale data = nameUnits locale data ++ [.dangling lead])
include h

theorem eq_append_lead_of_cut : data = bytesOf (nameUnits locale data) ++ [lead] :=
  eq_bytesOf_append_of_scan_eq h

theorem length_of_cut : data.length = widthOf (nameUnits locale data) + 1 := by
  have hlength := congrArg List.length (eq_append_lead_of_cut h)
  rw [List.length_append, List.length_singleton] at hlength
  exact hlength

/-- A unit that the end of the buffer has cut is the last byte, behind the whole name. -/
theorem reachesLead_of_cut (hlead : locale.isLead lead = true) :
    ReachesLead locale data lead := by
  have hlength := length_of_cut h
  refine ⟨?_, hlead, ⟨.dangling lead, ?_⟩, ?_⟩
  · exact List.getLast?_eq_some_iff.mpr ⟨_, eq_append_lead_of_cut h⟩
  · exact mem_located_iff.mpr ⟨_, [], h, by omega⟩
  · intro offset unit hmem hlt
    rw [h, located_append, List.mem_append] at hmem
    rcases hmem with hmem | hmem
    · exact List.mem_takeWhile_imp (mem_of_mem_located hmem)
    · obtain ⟨rfl, -⟩ := Prod.mk.inj (List.mem_singleton.mp hmem)
      omega

end Cut

/-- Where a reader reaches a lead byte at the end, the name is cut off there. -/
theorem cut_of_reachesLead (h : ReachesLead locale data lead) :
    scan locale data = nameUnits locale data ++ [.dangling lead] := by
  obtain ⟨hlast, hlead, ⟨unit, hmem⟩, hreadable⟩ := h
  obtain ⟨bytes, rfl⟩ := List.getLast?_eq_some_iff.mp hlast
  rw [List.length_append, List.length_singleton, Nat.add_sub_cancel] at hmem hreadable
  obtain ⟨front, hscan, hbytes, hwidth⟩ := scan_eq_of_mem_located_last hmem
  have hunit : unit = .dangling lead :=
    eq_dangling_of_mem_scan (mem_of_mem_located hmem) hbytes hlead
  subst hunit
  have hfront : ∀ unit ∈ front, unit.isReadable locale = true := by
    intro unit hunit
    -- the unit has the lead byte behind it, so it starts in front of the last byte
    obtain ⟨front', behind, rfl⟩ := List.mem_iff_append.mp hunit
    have hlocated : (widthOf front', unit) ∈ located 0 (scan locale (bytes ++ [lead])) := by
      rw [hscan, List.append_assoc, List.cons_append]
      exact mem_located_iff.mpr ⟨front', _, rfl, (Nat.zero_add _).symm⟩
    have hpos := unit.width_pos
    rw [widthOf_append, widthOf_cons] at hwidth
    exact hreadable _ unit hlocated (by omega)
  rw [nameUnits_of_scan_eq hscan hfront rfl, hscan]

/-! ## The checked reader -/

/-- A lead byte that is reached at the end is refused, with its position. -/
theorem decodeChecked_of_reachesLead (h : ReachesLead locale data lead) :
    decodeChecked locale data = .error (.danglingLead (data.length - 1)) := by
  have hcut := cut_of_reachesLead h
  rw [decodeChecked_of_cut hcut, length_of_cut hcut, Nat.add_sub_cancel]

/-- Without the lead byte at its end the buffer holds the same name, and the reader accepts it. -/
theorem decodeChecked_take_of_reachesLead (h : ReachesLead locale data lead) :
    decodeChecked locale (data.take (data.length - 1)) = .ok (decode locale data) := by
  have hdata := eq_append_lead_of_cut (cut_of_reachesLead h)
  have htake : data.take (data.length - 1) = bytesOf (nameUnits locale data) := by
    rw [← List.dropLast_eq_take]
    exact (congrArg List.dropLast hdata).trans List.dropLast_concat
  have hname := nameUnits_bytesOf_nameUnits locale data
  have hdecode : decode locale (bytesOf (nameUnits locale data)) = decode locale data := by
    rw [decode, hname]
    rfl
  rw [htake, decodeChecked_of_full ((scan_bytesOf_nameUnits locale data).trans hname.symm), hdecode]

/-- Where no lead byte is reached at the end, the strict reader finds what any reader finds. -/
theorem decodeChecked_of_not_reachesLead (h : ¬∃ lead, ReachesLead locale data lead) :
    decodeChecked locale data = .ok (decode locale data) := by
  cases nameEnd locale data with
  | full hscan => exact decodeChecked_of_full hscan
  | stopped hwhole hstop hscan => exact decodeChecked_of_stopped hwhole hscan
  | cut hlead hscan => exact absurd ⟨_, reachesLead_of_cut hscan hlead⟩ h

/-- The offset of an error is that of the last byte. -/
theorem reachesLead_of_decodeChecked_eq_error {error : NameError}
    (h : decodeChecked locale data = .error error) :
    (∃ lead, ReachesLead locale data lead) ∧ error = .danglingLead (data.length - 1) := by
  by_cases hreach : ∃ lead, ReachesLead locale data lead
  · obtain ⟨lead, hlead⟩ := hreach
    rw [decodeChecked_of_reachesLead hlead, Except.error.injEq] at h
    exact ⟨⟨lead, hlead⟩, h.symm⟩
  · rw [decodeChecked_of_not_reachesLead hreach] at h
    cases h

/-- A lead byte at the end is refused, but not as a trail byte, and not behind a terminator. -/
example : decodeChecked .international [0xBB, 0x01] = .error (.danglingLead 1) ∧
    decodeChecked .international [0xBB, 0x01, 0x01] = .ok ['A', '阿'] ∧
    decodeChecked .international [0xFF, 0x01] = .ok [] := by decide +kernel

/-- A whole unit without a character keeps the reader from the end of the buffer. -/
theorem not_reachesLead_of_mem_scan {unit : CodeUnit} (hmem : unit ∈ scan locale data)
    (hstop : unit.isReadable locale = false) (hwhole : ∀ lead, unit ≠ .dangling lead) :
    ¬∃ lead, ReachesLead locale data lead := by
  rintro ⟨lead, hlead⟩
  obtain ⟨stop, behind, hwhole', -, hscan⟩ := exists_stop_of_mem_scan hmem hstop hwhole
  have hbehind := List.append_cancel_left (hscan.symm.trans (cut_of_reachesLead hlead))
  obtain ⟨rfl, -⟩ := List.cons.inj hbehind
  simp [CodeUnit.isWhole] at hwhole'

/-- When the checked reader refuses a buffer, what the error says, and what removes it. -/
theorem decodeChecked_dichotomy (locale : Locale) (data : Bytes) :
    let reached := ∃ lead, ReachesLead locale data lead
    ((∃ error, decodeChecked locale data = .error error) ↔ reached) ∧
      (reached →
        decodeChecked locale data = .error (.danglingLead (data.length - 1)) ∧
          decodeChecked locale (data.take (data.length - 1)) = .ok (decode locale data) ∧
          trashStart locale data = data.length ∧
          ∀ next rest, decodeChecked locale (data ++ next :: rest) ≠
            .error (.danglingLead (data.length - 1))) ∧
      (¬reached → decodeChecked locale data = .ok (decode locale data)) ∧
      ((∃ unit ∈ scan locale data, unit.isReadable locale = false ∧
          ∀ lead, unit ≠ .dangling lead) →
        decodeChecked locale data = .ok (decode locale data)) ∧
      (locale = .japanese → decodeChecked locale data = .ok (decode locale data)) := by
  intro reached
  refine ⟨⟨?_, ?_⟩, ?_, decodeChecked_of_not_reachesLead, ?_, ?_⟩
  · rintro ⟨error, herror⟩
    exact (reachesLead_of_decodeChecked_eq_error herror).1
  · rintro ⟨lead, hlead⟩
    exact ⟨_, decodeChecked_of_reachesLead hlead⟩
  · rintro ⟨lead, hlead⟩
    refine ⟨decodeChecked_of_reachesLead hlead, decodeChecked_take_of_reachesLead hlead,
      trashStart_of_cut (cut_of_reachesLead hlead), fun next rest herror => ?_⟩
    -- an error of the longer buffer is behind the last byte of this one
    have hoffset := NameError.danglingLead.inj (reachesLead_of_decodeChecked_eq_error herror).2
    have hpositive := length_of_cut (cut_of_reachesLead hlead)
    rw [List.length_append, List.length_cons] at hoffset
    omega
  · rintro ⟨unit, hmem, hstop, hwhole⟩
    exact decodeChecked_of_not_reachesLead (not_reachesLead_of_mem_scan hmem hstop hwhole)
  · rintro rfl
    refine decodeChecked_of_not_reachesLead ?_
    rintro ⟨lead, hlead⟩
    cases hlead.isLead

end SaveNames
