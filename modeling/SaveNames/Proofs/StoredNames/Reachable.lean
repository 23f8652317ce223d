import SaveNames.Proofs.Canonical
import SaveNames.Proofs.StoredNames.Fields

/-!
# Records that operations can make

**Only raw bytes can spoil a record.** From a blank record, every history of operations that
puts no raw bytes into a field leads to a record whose two buffers are canonical: each operation
keeps them so (`isCanonical_run`), hence so does every history (`isCanonical_of_reaches`).
-/

namespace SaveNames

/-- The records that allowed operations make from a first one. Each step may take its default
names from elsewhere. -/
inductive Reaches (allowed : Operation → Prop) (first : StoredNames) : StoredNames → Prop
  | refl : Reaches allowed first first
  | step {stored : StoredNames} (names : SpeciesNames) (operation : Operation)
      (h : Reaches allowed first stored) (hallowed : allowed operation) :
      Reaches allowed first (operation.run names stored).1

namespace StoredNames

/-- Both buffers of the record are canonical. -/
def IsCanonical (stored : StoredNames) : Prop :=
  ∀ field, SaveNames.IsCanonical stored.locale (stored.buffer field)

variable {stored : StoredNames}

theorem isCanonical_blank (locale : Locale) (generation : UInt8) :
    (blank locale generation).IsCanonical := by
  intro field
  cases field <;> exact isCanonical_blankBuffer locale _

/-- A canonical buffer in one field keeps the record canonical. -/
theorem IsCanonical.withBuffer (hstored : stored.IsCanonical) {field : Field} {bytes : Bytes}
    (h : bytes.length = (stored.buffer field).length)
    (hbytes : SaveNames.IsCanonical stored.locale bytes) :
    (stored.withBuffer field bytes h).IsCanonical := by
  intro field'
  rw [buffer_withBuffer, locale_withBuffer]
  split
  · exact hbytes
  · exact hstored field'

theorem IsCanonical.write (h : stored.IsCanonical) (field : Field) (padding : Padding)
    (maxChars : Nat) (text : Text) : (stored.write field padding maxChars text).1.IsCanonical :=
  h.withBuffer _ (isCanonical_encode ..)

theorem IsCanonical.replacePoints (h : stored.IsCanonical) (field : Field) :
    (stored.replacePoints field).1.IsCanonical :=
  h.withBuffer _ (isCanonical_replaceDecimalPoints stored.korean (h field))

end StoredNames

variable {stored : StoredNames}

/-- The setters write or do nothing. -/
theorem isCanonical_run_setter (names : SpeciesNames) (h : stored.IsCanonical) (field : Field)
    (text : Text) : ((Operation.setter field text).run names stored).1.IsCanonical := by
  rw [run_setter]
  split
  · exact h
  · exact h.write field _ _ text

/-- One operation keeps both buffers canonical, unless it puts raw bytes into a field. -/
theorem isCanonical_run (names : SpeciesNames) {operation : Operation}
    (hraw : operation.isPoke = false) (h : stored.IsCanonical) :
    (operation.run names stored).1.IsCanonical := by
  -- every case is a write, a replacement, the two in a row, or leaves both buffers alone
  cases operation with
  | setNickname text => exact isCanonical_run_setter names h .nickname text
  | setTrainerName text => exact isCanonical_run_setter names h .trainer text
  | clearNickname language => exact (h.write .nickname .fixed _ _).replacePoints .nickname
  | setNicknamed nicknamed => exact h
  | setSpecies species => exact h
  | setKorean korean => exact h
  | poke field offset bytes => cases hraw
  | write field padding maxChars text => exact h.write field padding maxChars text
  | replacePoints field => exact h.replacePoints field

/-- No operation changes the locale. -/
theorem locale_run (names : SpeciesNames) (stored : StoredNames) (operation : Operation) :
    (operation.run names stored).1.locale = stored.locale := by
  have hsetter : ∀ field text,
      ((Operation.setter field text).run names stored).1.locale = stored.locale := by
    intro field text
    rw [run_setter]
    split
    · rfl
    · exact StoredNames.locale_edit ..
  cases operation with
  | setNickname text => exact hsetter .nickname text
  | setTrainerName text => exact hsetter .trainer text
  | clearNickname language =>
    exact (StoredNames.locale_withBuffer ..).trans (StoredNames.locale_withBuffer ..)
  | setNicknamed nicknamed => rfl
  | setSpecies species => rfl
  | setKorean korean => rfl
  | poke field offset bytes => exact StoredNames.locale_withBuffer ..
  | write field padding maxChars text => exact StoredNames.locale_withBuffer ..
  | replacePoints field => exact StoredNames.locale_withBuffer ..

theorem locale_runAll (names : SpeciesNames) (stored : StoredNames) (history : List Operation) :
    (Operation.runAll names stored history).1.locale = stored.locale := by
  induction history generalizing stored with
  | nil => rfl
  | cons operation history ih => exact (ih _).trans (locale_run names stored operation)

section Reaches

variable {allowed : Operation → Prop} {first : StoredNames}

theorem locale_of_reaches (h : Reaches allowed first stored) : stored.locale = first.locale := by
  induction h with
  | refl => rfl
  | step names operation _ _ ih => exact (locale_run names _ operation).trans ih

/-- A record made from a canonical one without raw bytes is canonical. -/
theorem isCanonical_of_reaches (hraw : ∀ operation, allowed operation → operation.isPoke = false)
    (hfirst : first.IsCanonical) (h : Reaches allowed first stored) : stored.IsCanonical := by
  induction h with
  | refl => exact hfirst
  | step names operation _ hallowed ih => exact isCanonical_run names (hraw operation hallowed) ih

end Reaches

/-- In every record that is made from a blank one without raw bytes, either buffer has the length
that the layout asks, is free of dangling lead bytes, and is just what writing its own text over
it leaves: canonical codes, and a terminator if there is a byte for it. -/
theorem canonical_of_reaches {locale : Locale} {generation : UInt8}
    (h : Reaches (·.isPoke = false) (.blank locale generation) stored) (field : Field) :
    let data := stored.buffer field
    stored.locale = locale ∧
      data.length = locale.layout.length field ∧
      decodeChecked locale data = .ok (decode locale data) ∧
      (encode locale .keep data.length (decode locale data) data).1 = data ∧
      data.take (trashStart locale data) =
        terminated data.length (bytesOf (locale.unitsOf (decode locale data))) := by
  intro data
  have hlocale : stored.locale = locale := locale_of_reaches h
  have hcanonical : IsCanonical stored.locale data :=
    isCanonical_of_reaches (fun _ hraw => hraw) (StoredNames.isCanonical_blank locale generation)
      h field
  have hlength : data.length = stored.locale.layout.length field := stored.length_buffer field
  rw [hlocale] at hcanonical hlength
  exact ⟨hlocale, hlength, hcanonical.decodeChecked_eq, hcanonical.encode_keep,
    hcanonical.take_trashStart⟩

/-- Old bytes kept behind a short name, and its decimal point replaced. -/
theorem canonical_of_reaches_kept :
    let names : SpeciesNames := fun _ _ _ => []
    let long := (Operation.run names (.blank .international 3)
      (.write .trainer .fixed 9 ['A', 'B', 'C'])).1
    let kept := (Operation.run names long (.write .trainer .keep 9 ['・'])).1
    let stored := (Operation.run names kept (.replacePoints .trainer)).1
    Reaches (·.isPoke = false) (.blank .international 3) stored ∧
      decodeChecked .international (stored.buffer .trainer) =
        .ok (decode .international (stored.buffer .trainer)) := by
  intro names long kept stored
  have hlong : Reaches (·.isPoke = false) (.blank .international 3) long :=
    .step names _ .refl rfl
  have hkept : Reaches (·.isPoke = false) (.blank .international 3) kept :=
    .step names _ hlong rfl
  have hreaches : Reaches (·.isPoke = false) (.blank .international 3) stored :=
    .step names _ hkept rfl
  exact ⟨hreaches, (canonical_of_reaches hreaches .trainer).2.2.1⟩

end SaveNames
