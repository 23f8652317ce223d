import SaveNames.Proofs.DecimalPoint

/-!
# Reading buffers that were put together

**What a reader finds in a buffer depends on no byte behind the place where it stops.** So there
are two cases for a buffer with more bytes behind it:

* A whole unit stops the reader inside the buffer. Then the bytes behind make no difference at
  all: not to the text, not to the start of the trash, not to the decimal points that are replaced.
* Nothing stops it. Then the reader goes on in the bytes behind as it would in a buffer of their
  own: `text of the buffer ++ text of the bytes behind`.

A lead byte in the last position is neither: it takes the first byte behind it as its trail byte.
The text in front of it stays all the same, so what is read in the first bytes of a buffer is
always a first part of what is read in the whole of it (`decode_take_isPrefix`).
-/

namespace SaveNames

variable {locale : Locale} {front : Bytes}

/-! ## A reader that comes to the end -/

/-- A buffer all of whose units can be read is a name to its end. -/
theorem scan_eq_nameUnits_of_forall_isReadable
    (h : ∀ unit ∈ scan locale front, unit.isReadable locale = true) :
    scan locale front = nameUnits locale front := by
  rw [nameUnits, List.takeWhile_eq_self_iff.mpr h]

/-- Where nothing stops the reader, the bytes of the name are all the bytes. -/
theorem bytesOf_nameUnits_of_full (h : scan locale front = nameUnits locale front) :
    bytesOf (nameUnits locale front) = front := by
  rw [← h, bytesOf_scan]

section Full

variable (h : scan locale front = nameUnits locale front) (rest : Bytes)
include h

/-- Behind a name that fills its buffer, a reader goes on. -/
theorem decode_append_of_full :
    decode locale (front ++ rest) = decode locale front ++ decode locale rest := by
  have happend := decode_append (forall₂_shows_nameUnits locale front) rest
  rw [bytesOf_nameUnits_of_full h] at happend
  exact happend

/-- Behind a name that fills its buffer, the trash starts where it starts in the rest. -/
theorem trashStart_append_of_full :
    trashStart locale (front ++ rest) = front.length + trashStart locale rest := by
  have happend := trashStart_append (forall₂_shows_nameUnits locale front) rest
  rw [widthOf, bytesOf_nameUnits_of_full h] at happend
  exact happend

theorem trashStart_of_full : trashStart locale front = front.length := by
  have hempty : trashStart locale [] = 0 := rfl
  have happend := trashStart_append_of_full h []
  rw [List.append_nil, hempty, Nat.add_zero] at happend
  exact happend

end Full

theorem trashStart_of_cut {lead : UInt8}
    (h : scan locale front = nameUnits locale front ++ [.dangling lead]) :
    trashStart locale front = front.length := by
  rw [trashStart_of_scan_eq h, ← widthOf_scan locale front, h, widthOf_append]
  rfl

/-! ## A reader that is stopped -/

/-- Any whole unit without a character means that the reader is stopped by a whole unit: by this
one, or by another one in front of it. -/
theorem exists_stop_of_mem_scan {unit : CodeUnit} (hmem : unit ∈ scan locale front)
    (hstop : unit.isReadable locale = false) (hwhole : ∀ lead, unit ≠ .dangling lead) :
    ∃ stop behind, stop.isWhole locale = true ∧ stop.isReadable locale = false ∧
      scan locale front = nameUnits locale front ++ stop :: behind := by
  have hname : unit ∉ nameUnits locale front := by
    intro hmem'
    have hreadable : unit.isReadable locale = true := List.mem_takeWhile_imp hmem'
    rw [hstop] at hreadable
    cases hreadable
  cases nameEnd locale front with
  | full h =>
    rw [h] at hmem
    exact absurd hmem hname
  | stopped hwhole' hstop' h => exact ⟨_, _, hwhole', hstop', h⟩
  | cut hlead h =>
    rw [h, List.mem_append, List.mem_singleton] at hmem
    exact (hmem.elim hname (hwhole _)).elim

section Stopped

variable {stop : CodeUnit} {behind : List CodeUnit} (hwhole : stop.isWhole locale = true)
  (hstop : stop.isReadable locale = false)
  (h : scan locale front = nameUnits locale front ++ stop :: behind) (rest : Bytes)
include h

/-- The bytes of the name, then those of the stop, then whatever stands behind it. -/
theorem append_eq_of_stopped :
    front ++ rest =
      bytesOf (nameUnits locale front) ++ (stop.bytes ++ (bytesOf behind ++ rest)) := by
  have hfront : front = bytesOf (nameUnits locale front) ++ (stop.bytes ++ bytesOf behind) :=
    eq_bytesOf_append_of_scan_eq h
  calc front ++ rest
      = bytesOf (nameUnits locale front) ++ (stop.bytes ++ bytesOf behind) ++ rest := by
        rw [← hfront]
    _ = _ := by simp only [List.append_assoc]

include hwhole hstop

/-- Behind the unit that a reader stopped at, nothing belongs to the name. -/
theorem nameUnits_append_of_stopped :
    nameUnits locale (front ++ rest) = nameUnits locale front := by
  rw [append_eq_of_stopped h rest, nameUnits_append (forall₂_shows_nameUnits locale front),
    nameUnits_stop_append _ hwhole hstop, List.append_nil]

/-- A reader stops at the same unit, whatever stands behind it. -/
theorem stop?_append_of_stopped : stop? locale (front ++ rest) = stop? locale front := by
  rw [append_eq_of_stopped h rest, stop?_append (forall₂_shows_nameUnits locale front),
    stop?_stop_append _ hwhole hstop, stop?_of_scan_eq h, List.head?_cons]

/-- All that a reader reports is told from the name and from the stop. -/
theorem reading_append_of_stopped :
    decode locale (front ++ rest) = decode locale front ∧
      decodeChecked locale (front ++ rest) = decodeChecked locale front ∧
      trashStart locale (front ++ rest) = trashStart locale front := by
  have hname := nameUnits_append_of_stopped hwhole hstop h rest
  have hstop? := stop?_append_of_stopped hwhole hstop h rest
  simp only [decode, decodeChecked, trashStart, hname, hstop?, and_self]

end Stopped

/-- Bytes behind a buffer stay as they are if they are behind its name. -/
theorem replaceDecimalPoints_append (korean : Bool) {rest : Bytes}
    (h : nameUnits locale (front ++ rest) = nameUnits locale front) :
    replaceDecimalPoints locale korean (front ++ rest) =
      ((replaceDecimalPoints locale korean front).1 ++ rest,
        (replaceDecimalPoints locale korean front).2) := by
  by_cases hreplace : locale = .international ∧ korean = false
  · obtain ⟨rfl, rfl⟩ := hreplace
    have hle := widthOf_nameUnits_le .international front
    rw [replaceDecimalPoints_eq, replaceDecimalPoints_eq, h, List.drop_append_of_le_length hle,
      List.append_assoc]
  · rw [replaceDecimalPoints_of_ne hreplace, replaceDecimalPoints_of_ne hreplace]

/-! ## The first bytes of a buffer -/

/-- From the front of a buffer a reader gets the front of the text. -/
theorem decode_take_isPrefix (locale : Locale) (data : Bytes) (count : Nat) :
    decode locale (data.take count) <+: decode locale data := by
  -- the name of the first bytes is a piece of the name, whatever it is that ends it there
  have hsplit := bytesOf_nameUnits_append locale (data.take count)
  have happend := decode_append (forall₂_shows_nameUnits locale (data.take count))
    (bytesOf ((scan locale (data.take count)).dropWhile (·.isReadable locale)) ++ data.drop count)
  rw [← List.append_assoc, hsplit, List.take_append_drop] at happend
  rw [happend]
  exact List.prefix_append _ _

/-- The bytes in front of the trash are enough to read the whole name. -/
theorem decode_take_trashStart (locale : Locale) (data : Bytes) :
    decode locale (data.take (trashStart locale data)) = decode locale data := by
  cases nameEnd locale data with
  | full h => rw [trashStart_of_full h, List.take_length]
  | cut hlead h => rw [trashStart_of_cut h, List.take_length]
  | @stopped stop behind hwhole hstop h =>
    have hdata := append_eq_of_stopped h []
    rw [List.append_nil] at hdata
    have htake : data.take (trashStart locale data) =
        bytesOf (nameUnits locale data) ++ (stop.bytes ++ []) := by
      rw [trashStart_of_scan_eq h]
      nth_rewrite 2 [hdata]
      show List.take ((bytesOf _).length + stop.bytes.length) _ = _
      rw [List.take_length_add_append, List.take_left, List.append_nil]
    have hempty : decode locale (stop.bytes ++ []) = [] := by
      rw [decode, nameUnits_stop_append [] hwhole hstop]
      rfl
    rw [htake, decode_append (forall₂_shows_nameUnits locale data), hempty, List.append_nil]

/-! ## The law -/

/-- Reading a buffer with more bytes behind it, and reading the first bytes of a buffer. -/
theorem reading_concatenation (locale : Locale) :
    (∀ front rest, (∃ unit ∈ scan locale front, unit.isReadable locale = false ∧
          ∀ lead, unit ≠ .dangling lead) →
      decode locale (front ++ rest) = decode locale front ∧
        decodeChecked locale (front ++ rest) = decodeChecked locale front ∧
        decodeChecked locale front = .ok (decode locale front) ∧
        trashStart locale (front ++ rest) = trashStart locale front ∧
        ∀ korean, replaceDecimalPoints locale korean (front ++ rest) =
          ((replaceDecimalPoints locale korean front).1 ++ rest,
            (replaceDecimalPoints locale korean front).2)) ∧
      (∀ front rest, (∀ unit ∈ scan locale front, unit.isReadable locale = true) →
        decode locale (front ++ rest) = decode locale front ++ decode locale rest ∧
          trashStart locale (front ++ rest) = front.length + trashStart locale rest) ∧
      (∀ data count, decode locale (data.take count) <+: decode locale data) ∧
      ∀ data, decode locale (data.take (trashStart locale data)) = decode locale data := by
  refine ⟨?_, ?_, decode_take_isPrefix locale, decode_take_trashStart locale⟩
  · rintro front rest ⟨unit, hmem, hunit, hwhole⟩
    obtain ⟨stop, behind, hwhole', hstop, h⟩ := exists_stop_of_mem_scan hmem hunit hwhole
    obtain ⟨hdecode, hchecked, htrash⟩ := reading_append_of_stopped hwhole' hstop h rest
    refine ⟨hdecode, hchecked, decodeChecked_of_stopped hwhole' h, htrash, fun korean => ?_⟩
    exact replaceDecimalPoints_append korean (nameUnits_append_of_stopped hwhole' hstop h rest)
  · intro front rest hreadable
    have h := scan_eq_nameUnits_of_forall_isReadable hreadable
    exact ⟨decode_append_of_full h rest, trashStart_append_of_full h rest⟩

end SaveNames
