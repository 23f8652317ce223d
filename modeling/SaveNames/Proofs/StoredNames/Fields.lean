import SaveNames.StoredNames.Operation

/-!
# What an operation does to the two fields

Every operation puts a new buffer into one field at most, and nothing changes the locale. The
setters of both fields follow one plan, told here once for either field: a guard that looks at
the shown name, and behind it an edit (`run_setter`).
-/

namespace SaveNames

namespace StoredNames

variable (stored : StoredNames) (field : Field)

/-! ## A new buffer in a field -/

section WithBuffer

variable (bytes : Bytes) (h : bytes.length = (stored.buffer field).length)

/-- The new bytes stand in their own field, and the other field keeps its bytes. -/
theorem buffer_withBuffer (field' : Field) :
    (stored.withBuffer field bytes h).buffer field' =
      if field' = field then bytes else stored.buffer field' := by
  cases field <;> cases field' <;> rfl

@[simp] theorem buffer_withBuffer_self :
    (stored.withBuffer field bytes h).buffer field = bytes := by
  rw [buffer_withBuffer, if_pos rfl]

@[simp] theorem locale_withBuffer : (stored.withBuffer field bytes h).locale = stored.locale := by
  cases field <;> rfl

/-- Putting the bytes into a field that are there already changes nothing of the record. -/
theorem withBuffer_of_eq (hbytes : bytes = stored.buffer field) :
    stored.withBuffer field bytes h = stored := by
  subst hbytes
  cases field <;> rfl

end WithBuffer

/-! ## Edits -/

/-- An edit writes with the padding that the trash shows, up to the cap of the layout. -/
theorem buffer_edit (text : Text) :
    (stored.edit field text).1.buffer field =
      (encode stored.locale (stored.paddingStyle field) (stored.layout.maxChars field) text
        (stored.buffer field)).1 :=
  buffer_withBuffer_self ..

/-- An edit reports what the writer reports for the style and the cap of the field. -/
theorem outcome_edit (text : Text) :
    (stored.edit field text).2 =
      (encode stored.locale (stored.paddingStyle field) (stored.layout.maxChars field) text
        (stored.buffer field)).2 := rfl

@[simp] theorem locale_edit (text : Text) : (stored.edit field text).1.locale = stored.locale :=
  locale_withBuffer ..

theorem buffer_edit_of_ne {stored : StoredNames} {field field' : Field} (h : field' ≠ field)
    (text : Text) : (stored.edit field text).1.buffer field' = stored.buffer field' := by
  show (stored.withBuffer field _ _).buffer field' = _
  rw [buffer_withBuffer, if_neg h]

/-- Whether the setter of the field finds the name there already. A nickname that is marked as
one is always written. -/
def alreadyShows : Field → Text → Bool
  | .nickname, text => !stored.nicknamed && stored.name .nickname = text
  | .trainer, text => stored.name .trainer = text

/-- A field that is found to show a text has it as its name. -/
theorem name_eq_of_alreadyShows {stored : StoredNames} {field : Field} {text : Text}
    (h : stored.alreadyShows field text = true) : stored.name field = text := by
  cases field with
  | nickname =>
    rw [alreadyShows, Bool.and_eq_true, decide_eq_true_eq] at h
    exact h.2
  | trainer =>
    rw [alreadyShows, decide_eq_true_eq] at h
    exact h

/-- The setter of a field. -/
def setName (stored : StoredNames) : Field → Text → StoredNames × Option Outcome
  | .nickname => stored.setNickname
  | .trainer => stored.setTrainerName

/-- Setting a name edits the field, unless it shows the text already. -/
theorem setName_eq (text : Text) :
    stored.setName field text =
      if stored.alreadyShows field text then (stored, none)
      else ((stored.edit field text).1, some (stored.edit field text).2) := by
  cases field with
  | nickname =>
    show stored.setNickname text = _
    rw [setNickname, alreadyShows]
  | trainer =>
    show stored.setTrainerName text = _
    simp only [setTrainerName, alreadyShows, decide_eq_true_eq]

/-- A setter finds its text in the field and does nothing, or it makes an edit. -/
theorem setName_cases (text : Text) :
    stored.setName field text = (stored, none) ∧ stored.name field = text ∨
      stored.setName field text =
        ((stored.edit field text).1, some (stored.edit field text).2) := by
  rw [setName_eq]
  split
  · next hshows => exact .inl ⟨rfl, name_eq_of_alreadyShows hshows⟩
  · exact .inr rfl

end StoredNames

/-- The call of a field's setter. -/
def Operation.setter : Field → Text → Operation
  | .nickname => .setNickname
  | .trainer => .setTrainerName

/-- Whether the operation puts raw bytes into a field. -/
def Operation.isPoke : Operation → Bool
  | .poke .. => true
  | _ => false

theorem run_setter_eq_setName (names : SpeciesNames) (stored : StoredNames) (field : Field)
    (text : Text) :
    (Operation.setter field text).run names stored =
      (stored.setName field text).map id Reply.ofSetter := by
  cases field <;> rfl

/-- The operation replies whether it has found the text there, and else with the outcome of the
edit. -/
theorem run_setter (names : SpeciesNames) (stored : StoredNames) (field : Field) (text : Text) :
    (Operation.setter field text).run names stored =
      if stored.alreadyShows field text then (stored, .unchanged)
      else ((stored.edit field text).1, .wrote (stored.edit field text).2) := by
  rw [run_setter_eq_setName, StoredNames.setName_eq]
  split <;> rfl

end SaveNames
