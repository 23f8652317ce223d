import Mathlib.Data.List.Forall2
import Mathlib.Data.List.TakeWhile
import SaveNames.Proofs.Codes
import SaveNames.Reading

/-!
# Reading a buffer piece by piece

Units that are whole and show characters are a piece of a name, whatever stands behind them. So
each result of reading a buffer that begins with such units is made of the units and of the same
result for the rest: the texts are appended (`decode_append`), the start of the trash is moved
(`trashStart_append`), and what stops the reader is the rest's affair (`stop?_append`).

Every buffer is of this form (`forall₂_shows_nameUnits`, `bytesOf_nameUnits_append`), and what
follows its name is one of three things (`NameEnd`, `nameEnd`): nothing, a whole unit that stands
for no character and any units behind it, or a lead byte that the end of the buffer has cut.
-/

namespace SaveNames

variable {locale : Locale} {units : List CodeUnit} {text : Text}

/-! ## Units that show characters -/

theorem CodeUnit.Shows.isReadable {unit : CodeUnit} {ch : Char} (h : unit.Shows locale ch) :
    unit.isReadable locale = true := by
  rw [CodeUnit.isReadable, h.2]
  rfl

theorem isWhole_of_forall₂_shows (h : List.Forall₂ (CodeUnit.Shows locale) units text) :
    ∀ unit ∈ units, unit.isWhole locale = true := by
  induction h with
  | nil => simp
  | cons hshows _ ih => exact List.forall_mem_cons.mpr ⟨hshows.1, ih⟩

theorem isReadable_of_forall₂_shows (h : List.Forall₂ (CodeUnit.Shows locale) units text) :
    ∀ unit ∈ units, unit.isReadable locale = true := by
  induction h with
  | nil => simp
  | cons hshows _ ih => exact List.forall_mem_cons.mpr ⟨hshows.isReadable, ih⟩

/-- The characters of units that show a text are the text. -/
theorem filterMap_char?_of_forall₂_shows (h : List.Forall₂ (CodeUnit.Shows locale) units text) :
    units.filterMap (·.char? locale) = text := by
  induction h with
  | nil => rfl
  | cons hshows _ ih => rw [List.filterMap_cons, hshows.2, ih]

/-! ## A piece of a name in front -/

variable (h : List.Forall₂ (CodeUnit.Shows locale) units text) (rest : Bytes)
include h

theorem scan_append : scan locale (bytesOf units ++ rest) = units ++ scan locale rest :=
  scan_bytesOf_append (isWhole_of_forall₂_shows h) rest

/-- A piece of a name in front of a buffer comes in front of the name that the buffer has. -/
theorem nameUnits_append :
    nameUnits locale (bytesOf units ++ rest) = units ++ nameUnits locale rest := by
  rw [nameUnits, scan_append h, List.takeWhile_append_of_pos (isReadable_of_forall₂_shows h)]
  rfl

/-- A piece of a name in front of a buffer does not change what stops a reader. -/
theorem stop?_append : stop? locale (bytesOf units ++ rest) = stop? locale rest := by
  have hnone : units.find? (!·.isReadable locale) = none := by
    rw [List.find?_eq_none]
    intro unit hmem
    simp [isReadable_of_forall₂_shows h unit hmem]
  rw [stop?, scan_append h, List.find?_append, hnone, Option.none_or]
  rfl

/-- A piece of a name in front of a buffer adds its text in front of what the buffer shows. -/
theorem decode_append : decode locale (bytesOf units ++ rest) = text ++ decode locale rest := by
  rw [decode, nameUnits_append h, List.filterMap_append, filterMap_char?_of_forall₂_shows h]
  rfl

/-- A piece of a name in front of a buffer moves the trash behind by its own width. -/
theorem trashStart_append :
    trashStart locale (bytesOf units ++ rest) = widthOf units + trashStart locale rest := by
  rw [trashStart, nameUnits_append h, stop?_append h, widthOf_append, trashStart, Nat.add_assoc]

/-- A piece of a name in front of a buffer leaves the trash as it is. -/
theorem trash_append : trash locale (bytesOf units ++ rest) = trash locale rest := by
  rw [trash, trashStart_append h, ← List.drop_drop, widthOf, List.drop_left]
  rfl

omit h

/-! ## A stop in front -/

section Stop

variable {stop : CodeUnit} (hwhole : stop.isWhole locale = true)
  (hstop : stop.isReadable locale = false)
include hwhole hstop

/-- A buffer that a stop begins has no name. -/
theorem nameUnits_stop_append : nameUnits locale (stop.bytes ++ rest) = [] := by
  rw [nameUnits, scan_bytes_append hwhole, List.takeWhile_cons, hstop]
  rfl

theorem stop?_stop_append : stop? locale (stop.bytes ++ rest) = some stop := by
  rw [stop?, scan_bytes_append hwhole, List.find?_cons, hstop]
  rfl

end Stop

/-! ## Taking a buffer apart -/

/-- The units of a name show its characters. -/
theorem forall₂_shows_nameUnits (locale : Locale) (data : Bytes) :
    List.Forall₂ (CodeUnit.Shows locale) (nameUnits locale data) (decode locale data) := by
  have hshows : ∀ unit ∈ nameUnits locale data, ∃ ch, unit.Shows locale ch := by
    intro unit hmem
    have hreadable : unit.isReadable locale = true := List.mem_takeWhile_imp hmem
    obtain ⟨ch, hch⟩ := Option.isSome_iff_exists.mp hreadable
    refine ⟨ch, ?_, hch⟩
    have hscan : unit ∈ scan locale data := List.takeWhile_subset _ hmem
    rcases (isScan_scan locale data).isWhole_or_dangling hscan with hwhole | ⟨lead, rfl⟩
    · exact hwhole
    · cases hch
  -- what the units are no longer matters, only that each of them shows a character
  rw [decode]
  generalize nameUnits locale data = units at hshows ⊢
  induction units with
  | nil => exact .nil
  | cons unit units ih =>
    obtain ⟨ch, hch⟩ := hshows unit List.mem_cons_self
    rw [List.filterMap_cons, hch.2]
    exact .cons hch (ih fun unit hmem => hshows unit (List.mem_cons_of_mem _ hmem))

/-- A buffer is the bytes of its name and then those of the stop and of the trash. -/
theorem bytesOf_nameUnits_append (locale : Locale) (data : Bytes) :
    bytesOf (nameUnits locale data) ++
      bytesOf ((scan locale data).dropWhile (·.isReadable locale)) = data := by
  rw [← bytesOf_append, nameUnits, List.takeWhile_append_dropWhile, bytesOf_scan]

theorem scan_bytesOf_nameUnits (locale : Locale) (data : Bytes) :
    scan locale (bytesOf (nameUnits locale data)) = nameUnits locale data := by
  have happend := scan_append (forall₂_shows_nameUnits locale data) []
  rw [List.append_nil] at happend
  exact happend.trans (List.append_nil _)

/-- The bytes of a name, as a buffer of their own, hold just this name. -/
theorem nameUnits_bytesOf_nameUnits (locale : Locale) (data : Bytes) :
    nameUnits locale (bytesOf (nameUnits locale data)) = nameUnits locale data := by
  rw [nameUnits, scan_bytesOf_nameUnits, List.takeWhile_eq_self_iff]
  exact fun unit hmem => List.mem_takeWhile_imp hmem

/-- Behind the bytes of the name stand those of the units that are not part of it. -/
theorem drop_widthOf_nameUnits (locale : Locale) (data : Bytes) :
    data.drop (widthOf (nameUnits locale data)) =
      bytesOf ((scan locale data).dropWhile (·.isReadable locale)) := by
  have hdrop := congrArg (List.drop (widthOf (nameUnits locale data)))
    (bytesOf_nameUnits_append locale data)
  rw [widthOf, List.drop_left] at hdrop
  exact hdrop.symm

/-- A buffer is the bytes of its name and whatever is left behind them. -/
theorem bytesOf_nameUnits_append_drop (locale : Locale) (data : Bytes) :
    bytesOf (nameUnits locale data) ++ data.drop (widthOf (nameUnits locale data)) = data := by
  rw [drop_widthOf_nameUnits, bytesOf_nameUnits_append]

theorem widthOf_nameUnits_le (locale : Locale) (data : Bytes) :
    widthOf (nameUnits locale data) ≤ data.length := by
  have h := congrArg List.length (bytesOf_nameUnits_append locale data)
  rw [List.length_append] at h
  rw [widthOf]
  omega

/-- A name has no more characters than the buffer has bytes. -/
theorem length_decode_le (locale : Locale) (data : Bytes) :
    (decode locale data).length ≤ data.length := by
  rw [← (forall₂_shows_nameUnits locale data).length_eq]
  exact Nat.le_trans (length_le_widthOf _) (widthOf_nameUnits_le locale data)

/-! ## How a name ends -/

variable {data : Bytes}

/-- The three ways in which the name of a buffer ends. -/
inductive NameEnd (locale : Locale) (data : Bytes) : Prop
  /-- Nothing stops a reader before the end of the buffer. -/
  | full (h : scan locale data = nameUnits locale data)
  /-- A whole unit that stands for no character stops it. -/
  | stopped {stop : CodeUnit} {behind : List CodeUnit} (hwhole : stop.isWhole locale = true)
    (hstop : stop.isReadable locale = false)
    (h : scan locale data = nameUnits locale data ++ stop :: behind)
  /-- A lead byte in the last position of the buffer stops it. -/
  | cut {lead : UInt8} (hlead : locale.isLead lead = true)
    (h : scan locale data = nameUnits locale data ++ [.dangling lead])

/-- The readable units in front of one that is not readable are the name. -/
theorem nameUnits_of_scan_eq {front behind : List CodeUnit} {stop : CodeUnit}
    (hscan : scan locale data = front ++ stop :: behind)
    (hfront : ∀ unit ∈ front, unit.isReadable locale = true)
    (hstop : stop.isReadable locale = false) : nameUnits locale data = front := by
  rw [nameUnits, hscan, List.takeWhile_append_of_pos hfront, List.takeWhile_cons, hstop]
  exact List.append_nil front

theorem scan_eq_nameUnits_append (locale : Locale) (data : Bytes) :
    scan locale data =
      nameUnits locale data ++ (scan locale data).dropWhile (·.isReadable locale) :=
  List.takeWhile_append_dropWhile.symm

/-- The name of every buffer ends in one of the three ways. -/
theorem nameEnd (locale : Locale) (data : Bytes) : NameEnd locale data := by
  have hsplit := scan_eq_nameUnits_append locale data
  have hstop := List.head?_dropWhile_not (·.isReadable locale) (scan locale data)
  have hscan := isScan_scan locale data
  rw [hsplit] at hscan
  -- the units behind the name could be those of any scan, but the first of them is not readable
  have hbehind := hscan.of_append
  generalize (scan locale data).dropWhile (·.isReadable locale) = behind at hsplit hstop hbehind
  cases hbehind with
  | nil => exact .full (by rw [List.append_nil] at hsplit; exact hsplit)
  | dangling hlead => exact .cut hlead hsplit
  | cons hwhole => exact .stopped hwhole hstop hsplit

section Behind

variable {behind : List CodeUnit} (hsplit : scan locale data = nameUnits locale data ++ behind)
include hsplit

theorem eq_bytesOf_append_of_scan_eq :
    data = bytesOf (nameUnits locale data) ++ bytesOf behind := by
  rw [← bytesOf_append, ← hsplit, bytesOf_scan]

/-- What stops a reader is the first unit behind the name. -/
theorem stop?_of_scan_eq : stop? locale data = behind.head? := by
  have hbehind : (scan locale data).dropWhile (·.isReadable locale) = behind :=
    List.append_cancel_left ((scan_eq_nameUnits_append locale data).symm.trans hsplit)
  rw [stop?, List.find?_eq_head?_dropWhile_not]
  simp only [Bool.not_not, hbehind]

/-- The trash starts behind the first unit that follows the name, if there is one. -/
theorem trashStart_of_scan_eq :
    trashStart locale data =
      widthOf (nameUnits locale data) + (behind.head?.map CodeUnit.width).getD 0 := by
  rw [trashStart, stop?_of_scan_eq hsplit]

end Behind

/-- The checked reader accepts a name that fills its buffer. -/
theorem decodeChecked_of_full (h : scan locale data = nameUnits locale data) :
    decodeChecked locale data = .ok (decode locale data) := by
  have hsplit : scan locale data = nameUnits locale data ++ [] := by
    rw [List.append_nil]
    exact h
  rw [decodeChecked, stop?_of_scan_eq hsplit]
  rfl

/-- The checked reader accepts every name that a whole unit ends. -/
theorem decodeChecked_of_stopped {stop : CodeUnit} {behind : List CodeUnit}
    (hwhole : stop.isWhole locale = true)
    (h : scan locale data = nameUnits locale data ++ stop :: behind) :
    decodeChecked locale data = .ok (decode locale data) := by
  rw [decodeChecked, stop?_of_scan_eq h]
  cases stop with
  | single byte => rfl
  | double lead trail => rfl
  | dangling lead => simp [CodeUnit.isWhole] at hwhole

/-- The checked reader refuses a name behind which the buffer ends in a lead byte, by the offset of
this byte. -/
theorem decodeChecked_of_cut {lead : UInt8}
    (h : scan locale data = nameUnits locale data ++ [.dangling lead]) :
    decodeChecked locale data = .error (.danglingLead (widthOf (nameUnits locale data))) := by
  rw [decodeChecked, stop?_of_scan_eq h]
  rfl

end SaveNames
