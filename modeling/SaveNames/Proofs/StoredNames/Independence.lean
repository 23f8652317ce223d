import SaveNames.Proofs.StoredNames.Reachable
import SaveNames.Proofs.StoredNames.StyleHistory

/-!
# The two names have nothing to do with each other

A record holds both names and the facts that bear on them, and one history works on all of it.
Still **each name goes its own way**: what becomes of a field, and what the operations on it
reply, is the same when the operations on the other field are left out of the history.

What a field can tell of a record is the relation `AgreeOn`. The argument has the usual two steps.
An operation that bears on the field takes records which the field cannot tell apart to such
records, with the same reply (`AgreeOn.run`); any other operation leads to a record that the
field cannot tell from the one before (`agreeOn_run_of_not_bearsOn`). Both carry over to
histories at once (`AgreeOn.runAll`).
-/

namespace SaveNames

/-! ## What bears on a field -/

namespace Operation

/-- The field that the operation works on. A nickname's mark belongs to the nickname. -/
def field? : Operation → Option Field
  | .setNickname _ | .clearNickname _ | .setNicknamed _ => some .nickname
  | .setTrainerName _ => some .trainer
  | .poke field .. | .write field .. | .replacePoints field => some field
  | .setSpecies _ | .setKorean _ => none

/-- Whether the operation works on the field, or sets what the operations on the field look at:
decimal points are replaced or not by the Korean flag, and a default name is that of the
species. -/
def bearsOn (field : Field) (operation : Operation) : Bool :=
  match operation with
  | .setKorean _ => true
  | .setSpecies _ => field = .nickname
  | _ => operation.field? = some field

/-- An operation that works on a field bears on this field only. -/
theorem bearsOn_iff_of_field? {operation : Operation} {field field' : Field}
    (h : operation.field? = some field') : operation.bearsOn field = true ↔ field' = field := by
  cases operation <;> simp_all [bearsOn, field?]

/-- For the trainer's name these are its own operations and the Korean flag. -/
theorem bearsOn_trainer_iff {operation : Operation} :
    operation.bearsOn .trainer = true ↔
      operation.field? = some .trainer ∨ ∃ korean, operation = .setKorean korean := by
  cases operation <;> simp [bearsOn, field?]

/-- For the nickname they are all operations but those on the trainer's name. -/
theorem bearsOn_nickname_iff {operation : Operation} :
    operation.bearsOn .nickname = true ↔ operation.field? ≠ some .trainer := by
  have hfield : ∀ field : Field, field = .nickname ↔ field ≠ .trainer := by
    intro field
    cases field <;> simp
  cases operation <;> simp [bearsOn, field?, hfield]

end Operation

/-- Whether the call is of an operation that bears on the field. -/
def Call.bearsOn (field : Field) (call : Call) : Bool := call.operation.bearsOn field

/-! ## What a field can tell -/

namespace StoredNames

/-- The records are the same as far as the operations on the field can tell. -/
structure AgreeOn (field : Field) (stored stored' : StoredNames) : Prop where
  locale : stored.locale = stored'.locale
  korean : stored.korean = stored'.korean
  buffer : stored.buffer field = stored'.buffer field
  nickname : field = .nickname → stored.generation = stored'.generation ∧
    stored.species = stored'.species ∧ stored.nicknamed = stored'.nicknamed

/-- Both results lead to records that the field cannot tell apart, and report the same. -/
def SameResult {α : Type} (field : Field) (result result' : StoredNames × α) : Prop :=
  AgreeOn field result.1 result'.1 ∧ result.2 = result'.2

theorem SameResult.map {α β : Type} {field : Field} {result result' : StoredNames × α}
    (h : SameResult field result result') (report : α → β) :
    SameResult field (result.map id report) (result'.map id report) :=
  ⟨h.1, congrArg report h.2⟩

variable {field : Field} {stored stored' : StoredNames}

theorem AgreeOn.refl (field : Field) (stored : StoredNames) : AgreeOn field stored stored :=
  ⟨rfl, rfl, rfl, fun _ => ⟨rfl, rfl, rfl⟩⟩

theorem AgreeOn.trans {stored'' : StoredNames} (h : AgreeOn field stored stored')
    (h' : AgreeOn field stored' stored'') : AgreeOn field stored stored'' := by
  refine ⟨h.locale.trans h'.locale, h.korean.trans h'.korean, h.buffer.trans h'.buffer, ?_⟩
  intro hfield
  obtain ⟨hgeneration, hspecies, hnicknamed⟩ := h.nickname hfield
  obtain ⟨hgeneration', hspecies', hnicknamed'⟩ := h'.nickname hfield
  exact ⟨hgeneration.trans hgeneration', hspecies.trans hspecies', hnicknamed.trans hnicknamed'⟩

/-- A new buffer in the other field makes no difference. -/
theorem agreeOn_withBuffer_of_ne {field' : Field} (hne : field' ≠ field) {bytes : Bytes}
    (hlength : bytes.length = (stored.buffer field').length) :
    AgreeOn field (stored.withBuffer field' bytes hlength) stored := by
  have hbuffer : (stored.withBuffer field' bytes hlength).buffer field = stored.buffer field := by
    rw [buffer_withBuffer, if_neg hne.symm]
  cases field' <;> exact ⟨rfl, rfl, hbuffer, fun _ => ⟨rfl, rfl, rfl⟩⟩

namespace AgreeOn

/-! ## Operations on the field -/

/-- The same bytes put into the field of both records, with the same report. -/
theorem withResult {α : Type} (h : AgreeOn field stored stored') {result result' : Bytes × α}
    (hresult : result = result') (hlength : result.1.length = (stored.buffer field).length)
    (hlength' : result'.1.length = (stored'.buffer field).length) :
    SameResult field (stored.withBuffer field result.1 hlength, result.2)
      (stored'.withBuffer field result'.1 hlength', result'.2) := by
  subst hresult
  refine ⟨?_, rfl⟩
  cases field <;> exact ⟨h.locale, h.korean, rfl, h.nickname⟩

theorem poke (h : AgreeOn field stored stored') (offset : Nat) (bytes : Bytes) :
    SameResult field (stored.poke field offset bytes) (stored'.poke field offset bytes) := by
  apply h.withResult
  rw [h.buffer]

/-- Writing the same text with the same padding and cap. -/
theorem write (h : AgreeOn field stored stored') (padding : Padding) (maxChars : Nat)
    (text : Text) :
    SameResult field (stored.write field padding maxChars text)
      (stored'.write field padding maxChars text) := by
  apply h.withResult
  rw [h.locale, h.buffer]

/-- Replacing points, for which the Korean flag counts as well. -/
theorem replacePoints (h : AgreeOn field stored stored') :
    SameResult field (stored.replacePoints field) (stored'.replacePoints field) := by
  apply h.withResult
  rw [h.locale, h.korean, h.buffer]

theorem name (h : AgreeOn field stored stored') : stored.name field = stored'.name field := by
  rw [StoredNames.name, StoredNames.name, h.locale, h.buffer]

/-- An edit, for which the style is read off the bytes of the field. -/
theorem edit (h : AgreeOn field stored stored') (text : Text) :
    SameResult field (stored.edit field text) (stored'.edit field text) := by
  have hpadding : stored.paddingStyle field = stored'.paddingStyle field := by
    rw [paddingStyle, paddingStyle, h.locale, h.buffer]
  have hlayout : stored.layout = stored'.layout := congrArg Locale.layout h.locale
  rw [StoredNames.edit, StoredNames.edit, hpadding, hlayout]
  exact h.write _ _ text

theorem alreadyShows (h : AgreeOn field stored stored') (text : Text) :
    stored.alreadyShows field text = stored'.alreadyShows field text := by
  cases field with
  | nickname =>
    rw [StoredNames.alreadyShows, StoredNames.alreadyShows, h.name, (h.nickname rfl).2.2]
  | trainer => rw [StoredNames.alreadyShows, StoredNames.alreadyShows, h.name]

/-- A setter, which looks at what the field shows and at the mark of a nickname. -/
theorem setter (h : AgreeOn field stored stored') (names : SpeciesNames) (text : Text) :
    SameResult field ((Operation.setter field text).run names stored)
      ((Operation.setter field text).run names stored') := by
  rw [run_setter, run_setter, h.alreadyShows]
  split
  · exact ⟨h, rfl⟩
  · exact (h.edit text).map Reply.wrote

theorem setNicknamed (h : AgreeOn .nickname stored stored') (nicknamed : Bool) :
    AgreeOn .nickname (stored.setNicknamed nicknamed) (stored'.setNicknamed nicknamed) :=
  ⟨h.locale, h.korean, h.buffer, fun hfield =>
    ⟨(h.nickname hfield).1, (h.nickname hfield).2.1, rfl⟩⟩

/-- Clearing, for which the species and the generation count as well. -/
theorem clearNickname (h : AgreeOn .nickname stored stored') (names : SpeciesNames)
    (language : Language) :
    SameResult .nickname (stored.clearNickname names language)
      (stored'.clearNickname names language) := by
  obtain ⟨hgeneration, hspecies, -⟩ := h.nickname rfl
  have hbuffer : stored.nickname = stored'.nickname := h.buffer
  have hwritten := h.write .fixed stored.nickname.length
    (names stored.species language stored.generation)
  rw [StoredNames.clearNickname, StoredNames.clearNickname, ← hgeneration, ← hspecies, ← hbuffer]
  exact ⟨hwritten.1.replacePoints.1.setNicknamed false, hwritten.2⟩

/-- An operation that bears on the field takes records that the field cannot tell apart to such
records, and replies the same. -/
theorem run (h : AgreeOn field stored stored') (names : SpeciesNames) {operation : Operation}
    (hbears : operation.bearsOn field = true) :
    SameResult field (operation.run names stored) (operation.run names stored') := by
  have hfield : ∀ field', operation.field? = some field' → field' = field :=
    fun field' hon => (Operation.bearsOn_iff_of_field? hon).mp hbears
  cases operation with
  | setNickname text =>
    obtain rfl := hfield .nickname rfl
    exact h.setter names text
  | setTrainerName text =>
    obtain rfl := hfield .trainer rfl
    exact h.setter names text
  | clearNickname language =>
    obtain rfl := hfield .nickname rfl
    exact (h.clearNickname names language).map Reply.wrote
  | setNicknamed nicknamed =>
    obtain rfl := hfield .nickname rfl
    exact ⟨h.setNicknamed nicknamed, rfl⟩
  | setSpecies species =>
    refine ⟨⟨h.locale, h.korean, ?_, fun hfield => ?_⟩, rfl⟩
    · cases field <;> exact h.buffer
    · exact ⟨(h.nickname hfield).1, rfl, (h.nickname hfield).2.2⟩
  | setKorean korean =>
    refine ⟨⟨h.locale, rfl, ?_, h.nickname⟩, rfl⟩
    cases field <;> exact h.buffer
  | poke field' offset bytes =>
    obtain rfl := hfield field' rfl
    exact (h.poke offset bytes).map Reply.count
  | write field' padding maxChars text =>
    obtain rfl := hfield field' rfl
    exact (h.write padding maxChars text).map Reply.wrote
  | replacePoints field' =>
    obtain rfl := hfield field' rfl
    exact h.replacePoints.map Reply.count

end AgreeOn

/-! ## Operations that do not bear on the field -/

/-- A setter of the other field makes no difference. -/
theorem agreeOn_setter_of_ne {field' : Field} (hne : field' ≠ field) (names : SpeciesNames)
    (stored : StoredNames) (text : Text) :
    AgreeOn field ((Operation.setter field' text).run names stored).1 stored := by
  rw [run_setter]
  split
  · exact .refl field stored
  · exact agreeOn_withBuffer_of_ne hne _

/-- An operation that does not bear on the field changes nothing that the field can tell. -/
theorem agreeOn_run_of_not_bearsOn (names : SpeciesNames) {operation : Operation}
    (hbears : operation.bearsOn field = false) (stored : StoredNames) :
    AgreeOn field (operation.run names stored).1 stored := by
  have hfield : ∀ field', operation.field? = some field' → field' ≠ field := by
    intro field' hon hsame
    rw [(Operation.bearsOn_iff_of_field? hon).mpr hsame] at hbears
    cases hbears
  cases operation with
  | setNickname text => exact agreeOn_setter_of_ne (hfield .nickname rfl) names stored text
  | setTrainerName text => exact agreeOn_setter_of_ne (hfield .trainer rfl) names stored text
  | clearNickname language =>
    -- what is left is the trainer's name, and nothing but the nickname is written
    cases field with
    | nickname => exact absurd rfl (hfield .nickname rfl)
    | trainer => exact ⟨rfl, rfl, rfl, nofun⟩
  | setNicknamed nicknamed =>
    cases field with
    | nickname => exact absurd rfl (hfield .nickname rfl)
    | trainer => exact ⟨rfl, rfl, rfl, nofun⟩
  | setSpecies species =>
    cases field with
    | nickname => cases hbears
    | trainer => exact ⟨rfl, rfl, rfl, nofun⟩
  | setKorean korean => cases hbears
  | poke field' offset bytes => exact agreeOn_withBuffer_of_ne (hfield field' rfl) _
  | write field' padding maxChars text => exact agreeOn_withBuffer_of_ne (hfield field' rfl) _
  | replacePoints field' => exact agreeOn_withBuffer_of_ne (hfield field' rfl) _

/-! ## Histories -/

/-- Leaving out the calls that do not bear on the field makes no difference to the field. -/
theorem AgreeOn.runAll (h : AgreeOn field stored stored') (calls : List Call) :
    AgreeOn field (Call.runAll stored calls)
      (Call.runAll stored' (calls.filter (Call.bearsOn field))) := by
  induction calls generalizing stored stored' with
  | nil => exact h
  | cons call calls ih =>
    rw [Call.runAll_cons]
    cases hbears : call.bearsOn field with
    | true =>
      rw [List.filter_cons_of_pos hbears, Call.runAll_cons]
      exact ih (h.run call.names hbears).1
    | false =>
      -- the call is made on one side only
      have hskipped : AgreeOn field (call.run stored).1 stored :=
        agreeOn_run_of_not_bearsOn call.names hbears stored
      rw [List.filter_cons_of_neg (by simp [hbears])]
      exact ih (hskipped.trans h)

end StoredNames

/-- No operation changes where a record comes from. -/
theorem generation_run (names : SpeciesNames) (stored : StoredNames) (operation : Operation) :
    (operation.run names stored).1.generation = stored.generation := by
  have hsetter : ∀ field text,
      ((Operation.setter field text).run names stored).1.generation = stored.generation := by
    intro field text
    rw [run_setter]
    split
    · rfl
    · cases field <;> rfl
  cases operation with
  | setNickname text => exact hsetter .nickname text
  | setTrainerName text => exact hsetter .trainer text
  | clearNickname language => rfl
  | setNicknamed nicknamed => rfl
  | setSpecies species => rfl
  | setKorean korean => rfl
  | poke field offset bytes => cases field <;> rfl
  | write field padding maxChars text => cases field <;> rfl
  | replacePoints field => cases field <;> rfl

/-- No history changes where a record comes from. -/
theorem origin_runAll (stored : StoredNames) (calls : List Call) :
    (Call.runAll stored calls).locale = stored.locale ∧
      (Call.runAll stored calls).generation = stored.generation := by
  induction calls generalizing stored with
  | nil => exact ⟨rfl, rfl⟩
  | cons call calls ih =>
    obtain ⟨hlocale, hgeneration⟩ := ih (call.run stored).1
    rw [Call.runAll_cons, hlocale, hgeneration]
    exact ⟨locale_run .., generation_run ..⟩

/-- Along a history of any operations on the names, each name goes its own way. Its buffer, the
mark of the nickname and the replies of the calls that bear on it are those of the history without
all other calls: for the trainer's name these are all calls but its own and those that set the
Korean flag, for the nickname they are the calls that work on the trainer's name. Locale,
generation and the lengths of the buffers never change. -/
theorem fields_independent (stored : StoredNames) (calls : List Call) :
    let final := Call.runAll stored calls
    let alone (field : Field) (calls : List Call) :=
      Call.runAll stored (calls.filter (Call.bearsOn field))
    (∀ field, final.buffer field = (alone field calls).buffer field) ∧
    final.nicknamed = (alone .nickname calls).nicknamed ∧
    (∀ field past call later, calls = past ++ call :: later → call.bearsOn field = true →
      (call.run (Call.runAll stored past)).2 = (call.run (alone field past)).2) ∧
    (∀ call : Call, call.bearsOn .trainer = true ↔
      call.operation.field? = some .trainer ∨ ∃ korean, call.operation = .setKorean korean) ∧
    (∀ call : Call, call.bearsOn .nickname = true ↔ call.operation.field? ≠ some .trainer) ∧
    final.locale = stored.locale ∧ final.generation = stored.generation ∧
    ∀ field, (final.buffer field).length = (stored.buffer field).length := by
  intro final alone
  have hagree : ∀ field calls, StoredNames.AgreeOn field (Call.runAll stored calls)
      (alone field calls) := fun field calls => (StoredNames.AgreeOn.refl field stored).runAll calls
  obtain ⟨hlocale, hgeneration⟩ := origin_runAll stored calls
  refine ⟨fun field => (hagree field calls).buffer, ((hagree .nickname calls).nickname rfl).2.2,
    ?_, ?_, ?_, hlocale, hgeneration, ?_⟩
  · intro field past call later _ hbears
    exact ((hagree field past).run call.names hbears).2
  · exact fun call => Operation.bearsOn_trainer_iff
  · exact fun call => Operation.bearsOn_nickname_iff
  · intro field
    have hlayout : final.layout = stored.layout := congrArg Locale.layout hlocale
    rw [StoredNames.length_buffer, StoredNames.length_buffer, hlayout]

end SaveNames
