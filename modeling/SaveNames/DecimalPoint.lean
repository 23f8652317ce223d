import SaveNames.Reading

/-!
# The decimal point in default names

A default name may hold a decimal point `・`, which the games store as a period `.`. The
replacement works on whole units of the name, so the second byte of a two-byte character is
never touched, and neither is the trash. Korean saves keep the decimal point, and in the
Japanese set `・` separates words and is no decimal point at all.
-/

namespace SaveNames

/-- The bytes of the decimal point and of the period that replaces it. -/
def Locale.decimalPoint? : Locale → Option (UInt8 × UInt8)
  | .international => some (0xAF, 0xAD)
  | .japanese => none

/-- A unit with one byte exchanged for another where it stands alone. -/
def CodeUnit.replaceSingle (old new : UInt8) (unit : CodeUnit) : CodeUnit :=
  if unit = .single old then .single new else unit

/-- A unit is as wide after a replacement as before. -/
theorem CodeUnit.width_replaceSingle (old new : UInt8) (unit : CodeUnit) :
    (unit.replaceSingle old new).width = unit.width := by
  by_cases h : unit = .single old <;> simp [replaceSingle, h, width, bytes]

/-- The buffer with every decimal point of its name replaced by a period, and how many there
were. -/
def replaceDecimalPoints (locale : Locale) (korean : Bool) (data : Bytes) : Bytes × Nat :=
  match korean, locale.decimalPoint? with
  | false, some (point, period) =>
    let name := nameUnits locale data
    let rest := (scan locale data).dropWhile (·.isReadable locale)
    (bytesOf (name.map (CodeUnit.replaceSingle point period) ++ rest),
      name.count (.single point))
  | _, _ => (data, 0)

/-- A replacement in all units leaves their width as it is. -/
theorem widthOf_map_replaceSingle (old new : UInt8) (units : List CodeUnit) :
    widthOf (units.map (CodeUnit.replaceSingle old new)) = widthOf units := by
  induction units with
  | nil => rfl
  | cons unit rest ih =>
    simp only [widthOf, bytesOf, List.map_cons, List.flatMap_cons, List.length_append] at ih ⊢
    rw [ih]
    exact congrArg (· + _) (CodeUnit.width_replaceSingle old new unit)

/-- The replacement keeps the length of the buffer. -/
theorem length_replaceDecimalPoints (locale : Locale) (korean : Bool) (data : Bytes) :
    (replaceDecimalPoints locale korean data).1.length = data.length := by
  unfold replaceDecimalPoints
  split
  · have h := widthOf_map_replaceSingle
    simp only [widthOf] at h
    have hd := congrArg List.length (bytesOf_scan locale data)
    rw [← List.takeWhile_append_dropWhile (p := (·.isReadable locale)) (l := scan locale data)]
      at hd
    simp only [bytesOf, List.flatMap_append, List.length_append] at h hd ⊢
    rw [h]
    exact hd
  · rfl

end SaveNames
