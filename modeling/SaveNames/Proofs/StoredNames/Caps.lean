import SaveNames.Proofs.StoredNames.Independence
import SaveNames.Proofs.StoredNames.Setters

/-!
# How long names can get

The layout caps the characters of either name, and its cap for the nickname is one below what the
buffer has room for. Setters keep to it. Clearing a nickname does not: a default name may fill the
buffer (`default_name_over_cap`).

So the trainer's name never has more characters than its cap. The nickname is within its cap
unless **the last call that wrote it** was a clearing with a longer default name, and then the
length of the buffer is the limit (`length_name_runAll_le`). Which call that was can be read off
the history (`Call.lastWrite?`), and nothing else of the history matters to the nickname
(`nickname_runAll`).
-/

namespace SaveNames

/-- Whether the operation works on the bytes of a field and knows no names or caps. -/
def Operation.isRaw : Operation → Bool
  | .poke .. | .write .. | .replacePoints .. => true
  | _ => false

/-! ## The last write -/

namespace Call

/-- Whether the call writes the nickname. The setter may find nothing to do. -/
def writesNickname (call : Call) (stored : StoredNames) : Bool :=
  match call.operation with
  | .setNickname _ => (call.run stored).2 ≠ .unchanged
  | .clearNickname _ => true
  | _ => false

/-- The last call of a history that writes the nickname, and the record that it finds. -/
def lastWrite? (stored : StoredNames) : List Call → Option (StoredNames × Call)
  | [] => none
  | call :: calls =>
    match lastWrite? (call.run stored).1 calls with
    | some last => some last
    | none => if call.writesNickname stored then some (stored, call) else none

end Call

variable {stored : StoredNames} {call : Call} {calls : List Call}

/-- A call that does not write the nickname leaves it as it is. -/
theorem nickname_run_of_not_writesNickname (hraw : call.operation.isRaw = false)
    (hwrites : call.writesNickname stored = false) :
    (call.run stored).1.nickname = stored.nickname := by
  obtain ⟨names, operation⟩ := call
  cases operation with
  | setNickname text =>
    have hunchanged : ((Operation.setter .nickname text).run names stored).2 = .unchanged :=
      Decidable.not_not.mp (of_decide_eq_false hwrites)
    show ((Operation.setter .nickname text).run names stored).1.nickname = stored.nickname
    rw [run_setter] at hunchanged ⊢
    split at hunchanged
    · next hshows => rw [if_pos hshows]
    · cases hunchanged
  | setTrainerName text =>
    have hne : Field.trainer ≠ .nickname := by decide
    exact (StoredNames.agreeOn_setter_of_ne hne names stored text).buffer
  | clearNickname language => cases hwrites
  | setNicknamed nicknamed => rfl
  | setSpecies species => rfl
  | setKorean korean => rfl
  | poke field offset bytes => cases hraw
  | write field padding maxChars text => cases hraw
  | replacePoints field => cases hraw

/-- The nickname of a record after a history is what the last write has left, if there was one. -/
theorem nickname_runAll (stored : StoredNames)
    (hraw : ∀ call ∈ calls, call.operation.isRaw = false) :
    (Call.lastWrite? stored calls = none ∧
        (Call.runAll stored calls).nickname = stored.nickname) ∨
      ∃ before call, Call.lastWrite? stored calls = some (before, call) ∧
        call.writesNickname before = true ∧ before.locale = stored.locale ∧
        (Call.runAll stored calls).nickname = (call.run before).1.nickname := by
  induction calls generalizing stored with
  | nil => exact .inl ⟨rfl, rfl⟩
  | cons call calls ih =>
    obtain ⟨hcall, hcalls⟩ := List.forall_mem_cons.mp hraw
    have hlocale : (call.run stored).1.locale = stored.locale := locale_run ..
    rw [Call.runAll_cons, Call.lastWrite?]
    rcases ih (call.run stored).1 hcalls with ⟨hnone, hnickname⟩ | ⟨before, last, hsome, hrest⟩
    · -- no later call writes, so it is this one or none
      rw [hnone, hnickname]
      cases hwrites : call.writesNickname stored with
      | true => exact .inr ⟨stored, call, rfl, hwrites, rfl, rfl⟩
      | false => exact .inl ⟨rfl, nickname_run_of_not_writesNickname hcall hwrites⟩
    · rw [hsome]
      rw [hlocale] at hrest
      exact .inr ⟨before, last, rfl, hrest⟩

/-! ## Caps -/

namespace StoredNames

/-- The name in the field has no more characters than the layout allows. -/
def WithinCap (stored : StoredNames) (field : Field) : Prop :=
  (stored.name field).length ≤ stored.layout.maxChars field

instance (stored : StoredNames) (field : Field) : Decidable (stored.WithinCap field) :=
  inferInstanceAs (Decidable (_ ≤ _))

theorem name_blank (locale : Locale) (generation : UInt8) (field : Field) :
    (blank locale generation).name field = [] := by
  have hblank : ∀ length, decode locale (blankBuffer length) = [] := by
    intro length
    rw [← closeName_blankBuffer, decode_closeName]
  cases field <;> exact hblank _

theorem withinCap_blank (locale : Locale) (generation : UInt8) (field : Field) :
    (blank locale generation).WithinCap field := by
  rw [WithinCap, name_blank]
  exact Nat.zero_le _

/-- An edit places no more characters than the layout allows. -/
theorem withinCap_edit (stored : StoredNames) (field : Field) (text : Text) :
    (stored.edit field text).1.WithinCap field := by
  have hchars := chars_encode_le stored.locale (stored.paddingStyle field)
    (stored.layout.maxChars field) text (stored.buffer field)
  rw [WithinCap, layout, locale_edit, name_edit, List.length_map, List.length_take, outcome_edit]
  show _ ≤ stored.layout.maxChars field
  omega

/-- A name has no more characters than its buffer has bytes. -/
theorem length_name_le (stored : StoredNames) (field : Field) :
    (stored.name field).length ≤ stored.layout.length field := by
  rw [← length_buffer]
  exact length_decode_le ..

/-- A setter leaves a name within its cap there. -/
theorem WithinCap.setter {field : Field} (h : stored.WithinCap field) (names : SpeciesNames)
    (text : Text) : ((Operation.setter field text).run names stored).1.WithinCap field := by
  rw [run_setter]
  split
  · exact h
  · exact withinCap_edit stored field text

/-- Only the setter writes the trainer's name, and it keeps to the cap. -/
theorem WithinCap.run_trainer (h : stored.WithinCap .trainer)
    (hraw : call.operation.isRaw = false) : (call.run stored).1.WithinCap .trainer := by
  have hother : call.operation.bearsOn .trainer = false →
      (call.run stored).1.WithinCap .trainer := by
    intro hbears
    have hsame := agreeOn_run_of_not_bearsOn call.names hbears stored
    have hlayout : (call.run stored).1.layout = stored.layout :=
      congrArg Locale.layout hsame.locale
    have hname : (call.run stored).1.name .trainer = stored.name .trainer := hsame.name
    rw [WithinCap, hlayout, hname]
    exact h
  obtain ⟨names, operation⟩ := call
  cases operation with
  | setNickname text => exact hother rfl
  | setTrainerName text => exact h.setter names text
  | clearNickname language => exact hother rfl
  | setNicknamed nicknamed => exact hother rfl
  | setSpecies species => exact hother rfl
  | setKorean korean => exact h
  | poke field offset bytes => cases hraw
  | write field padding maxChars text => cases hraw
  | replacePoints field => cases hraw

/-- No history without raw bytes brings the name of the trainer over its cap. -/
theorem WithinCap.runAll_trainer (h : stored.WithinCap .trainer)
    (hraw : ∀ call ∈ calls, call.operation.isRaw = false) :
    (Call.runAll stored calls).WithinCap .trainer := by
  induction calls generalizing stored with
  | nil => exact h
  | cons call calls ih =>
    obtain ⟨hcall, hcalls⟩ := List.forall_mem_cons.mp hraw
    rw [Call.runAll_cons]
    exact ih (h.run_trainer hcall) hcalls

/-- Stored with periods for its decimal points or without, a text is as long as it was. -/
theorem length_storedText (locale : Locale) (korean : Bool) (text : Text) :
    (storedText locale korean text).length = text.length := by
  rw [storedText]
  split
  · exact List.length_map _
  · rfl

/-- A cleared nickname shows no more characters than the default name has. -/
theorem length_name_clearNickname_le (stored : StoredNames) (names : SpeciesNames)
    (language : Language) :
    ((stored.clearNickname names language).1.name .nickname).length ≤
      (stored.defaultName names language).length := by
  have hname : (stored.clearNickname names language).1.name .nickname = _ :=
    (congrArg (decode stored.locale) (nickname_clearNickname stored names language)).trans
      (decode_encodeFresh ..)
  have hlength := length_storedText stored.locale stored.korean (stored.defaultName names language)
  rw [hname, List.length_map, ← hlength, placed, List.length_take]
  exact Nat.min_le_right _ _

/-- A call that writes the nickname keeps to the cap, or it is a clearing with a default name that
is longer. -/
theorem withinCap_or_longer_defaultName (hwrites : call.writesNickname stored = true) :
    (call.run stored).1.WithinCap .nickname ∨
      ∃ language, call.operation = .clearNickname language ∧
        stored.layout.maxNicknameChars < (stored.defaultName call.names language).length := by
  obtain ⟨names, operation⟩ := call
  cases operation with
  | setNickname text =>
    have hwrote : ((Operation.setter .nickname text).run names stored).2 ≠ .unchanged :=
      of_decide_eq_true hwrites
    left
    show ((Operation.setter .nickname text).run names stored).1.WithinCap .nickname
    rw [run_setter] at hwrote ⊢
    split at hwrote
    · exact absurd rfl hwrote
    · next hshows =>
      rw [if_neg hshows]
      exact withinCap_edit stored .nickname text
  | clearNickname language =>
    have hlength := length_name_clearNickname_le stored names language
    rcases Nat.lt_or_ge stored.layout.maxNicknameChars
      (stored.defaultName names language).length with hlonger | hle
    · exact .inr ⟨language, rfl, hlonger⟩
    · exact .inl (Nat.le_trans hlength hle)
  | setTrainerName text => cases hwrites
  | setNicknamed nicknamed => cases hwrites
  | setSpecies species => cases hwrites
  | setKorean korean => cases hwrites
  | poke field offset bytes => cases hwrites
  | write field padding maxChars text => cases hwrites
  | replacePoints field => cases hwrites

end StoredNames

/-- The caps in every record that setters, clearings and changes of the species and of the flags
make from a blank one. The trainer's name keeps to its cap. So does the nickname, unless the last
call that wrote it was a clearing with a default name of more characters; then it has no more than
the buffer has bytes. -/
theorem length_name_runAll_le (locale : Locale) (generation : UInt8) (calls : List Call)
    (hraw : ∀ call ∈ calls, call.operation.isRaw = false) :
    let first := StoredNames.blank locale generation
    let final := Call.runAll first calls
    final.layout = locale.layout ∧
    (final.name .trainer).length ≤ locale.layout.maxTrainerChars ∧
    (final.name .nickname).length ≤ locale.layout.nicknameLength ∧
    ((final.name .nickname).length ≤ locale.layout.maxNicknameChars ∨
      ∃ before call language, Call.lastWrite? first calls = some (before, call) ∧
        call.operation = .clearNickname language ∧
        locale.layout.maxNicknameChars < (before.defaultName call.names language).length) := by
  intro first final
  have hlocale : final.locale = locale := (origin_runAll first calls).1
  have hlayout : final.layout = locale.layout := congrArg Locale.layout hlocale
  have htrainer : final.WithinCap .trainer :=
    (StoredNames.withinCap_blank locale generation .trainer).runAll_trainer hraw
  have hlength : (final.name .nickname).length ≤ final.layout.nicknameLength :=
    final.length_name_le .nickname
  rw [StoredNames.WithinCap, hlayout] at htrainer
  rw [hlayout] at hlength
  refine ⟨hlayout, htrainer, hlength, ?_⟩
  have hname : ∀ stored : StoredNames, stored.locale = locale →
      final.nickname = stored.nickname → final.name .nickname = stored.name .nickname := by
    intro stored hstored hnickname
    exact congrArg₂ decode (hlocale.trans hstored.symm) hnickname
  rcases nickname_runAll first hraw with ⟨-, hnickname⟩ | ⟨before, call, hlast, hwrites, hbefore,
    hnickname⟩
  · left
    rw [hname first rfl hnickname, StoredNames.name_blank]
    exact Nat.zero_le _
  · have hafter : (call.run before).1.locale = locale := (locale_run ..).trans hbefore
    have hcap := StoredNames.withinCap_or_longer_defaultName hwrites
    rw [StoredNames.WithinCap, StoredNames.layout, StoredNames.layout, hafter, hbefore] at hcap
    rw [hname _ hafter hnickname]
    refine hcap.imp id ?_
    rintro ⟨language, hclears, hlonger⟩
    exact ⟨before, call, language, hlast, hclears, hlonger⟩

/-- A default name that fills the buffer, and behind it a setter that finds nothing to do: the
clearing was the last write. -/
theorem length_name_runAll_le_full :
    let full := ['A', 'B', 'C', 'D', 'E', 'F', 'G', 'H', 'I', 'J', 'K']
    let names : SpeciesNames := fun _ _ _ => full
    let calls : List Call :=
      [⟨names, .setNickname ['L']⟩, ⟨names, .clearNickname .english⟩, ⟨names, .setNickname full⟩]
    (∀ call ∈ calls, call.operation.isRaw = false) ∧
      ∃ before call language,
        Call.lastWrite? (.blank .international 3) calls = some (before, call) ∧
        call.operation = .clearNickname language ∧
        10 < (before.defaultName call.names language).length := by
  intro full names calls
  have hraw : ∀ call ∈ calls, call.operation.isRaw = false := by decide
  have hover : ¬((Call.runAll (.blank .international 3) calls).name .nickname).length ≤ 10 := by
    decide +kernel
  have hcaps := (length_name_runAll_le .international 3 calls hraw).2.2.2
  exact ⟨hraw, hcaps.resolve_left hover⟩

/-- The cap does not hold of every record: a default name of one character more fills an
international nickname. -/
theorem default_name_over_cap :
    let names : SpeciesNames := fun _ _ _ => ['A', 'B', 'C', 'D', 'E', 'F', 'G', 'H', 'I', 'J', 'K']
    let calls : List Call := [⟨names, .clearNickname .english⟩]
    let final := Call.runAll (.blank .international 3) calls
    (∀ call ∈ calls, call.operation.isRaw = false) ∧
      final.layout.maxNicknameChars < (final.name .nickname).length := by
  decide +kernel

end SaveNames
