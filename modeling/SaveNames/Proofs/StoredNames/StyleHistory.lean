import SaveNames.Proofs.StoredNames.DefaultName

/-!
# The style of a field along a history

An edit infers the padding from the trash and passes it on through the trash that it leaves. So
the style of a field outlives its names, as long as each of them leaves some trash:

* one setter fills the trash of its field with the byte of the style that the field showed before
  (`fills_setter`), and clearing the nickname fills it with the fixed byte;
* **a field shows zeros after a history if and only if it did before and no call has ended it**
  (`showsZeros_runAll_iff`). A call ends it by writing a name that leaves no trash, or by clearing
  the nickname. Zeros never come back: no call makes a field show them that did not.

Zeros inside a name, where they are spaces or second bytes, have no part in this.
-/

namespace SaveNames

/-! ## Calls -/

/-- A call of an operation, with the default names that it is given. -/
structure Call where
  names : SpeciesNames
  operation : Operation

namespace Call

/-- Runs the call. -/
def run (call : Call) (stored : StoredNames) : StoredNames × Reply :=
  call.operation.run call.names stored

/-- The record after a history of calls. -/
def runAll (stored : StoredNames) (calls : List Call) : StoredNames :=
  calls.foldl (fun stored call => (call.run stored).1) stored

theorem runAll_cons (stored : StoredNames) (call : Call) (calls : List Call) :
    runAll stored (call :: calls) = runAll (call.run stored).1 calls := rfl

/-- The call ends the zeros of the field: it writes a name that leaves no trash, or it clears the
nickname. -/
def EndsZeros (call : Call) (stored : StoredNames) (field : Field) : Prop :=
  (∃ text outcome, call.operation = .setter field text ∧
    (call.run stored).2 = .wrote outcome ∧ (call.run stored).1.trashOf field = []) ∨
  field = .nickname ∧ ∃ language, call.operation = .clearNickname language

end Call

/-- The operations that set a name. -/
inductive Operation.SetsName : Operation → Prop
  | setter (field : Field) (text : Text) : SetsName (.setter field text)
  | clearNickname (language : Language) : SetsName (.clearNickname language)

theorem Operation.setter_inj {field field' : Field} {text text' : Text} :
    setter field text = setter field' text' ↔ field = field' ∧ text = text' := by
  cases field <;> cases field' <;> simp [setter]

theorem Operation.setter_ne_clearNickname (field : Field) (text : Text) (language : Language) :
    setter field text ≠ .clearNickname language := by
  cases field <;> simp [setter]

variable {stored : StoredNames} {field : Field}

/-! ## One call -/

section Setter

variable {call : Call} {field' : Field} {text : Text}
variable (hcall : call.operation = .setter field' text) (stored : StoredNames)
include hcall

theorem run_call_setter :
    call.run stored =
      if stored.alreadyShows field' text then (stored, .unchanged)
      else ((stored.edit field' text).1, .wrote (stored.edit field' text).2) := by
  rw [Call.run, hcall, run_setter]

/-- A setter ends the zeros of its own field only, and only by a name that leaves no trash. -/
theorem endsZeros_setter_iff :
    call.EndsZeros stored field ↔
      field' = field ∧ ∃ outcome, (call.run stored).2 = .wrote outcome ∧
        (call.run stored).1.trashOf field = [] := by
  rw [Call.EndsZeros, hcall]
  constructor
  · rintro (⟨text', outcome, hsetter, hends⟩ | ⟨-, language, hclear⟩)
    · exact ⟨(Operation.setter_inj.mp hsetter).1, outcome, hends⟩
    · exact absurd hclear (Operation.setter_ne_clearNickname field' text language)
  · rintro ⟨rfl, outcome, hends⟩
    exact .inl ⟨text, outcome, rfl, hends⟩

/-- A setter finds nothing to do, or it leaves the byte of the style that its field showed. -/
theorem fills_setter :
    (call.run stored).2 = .unchanged ∧
        (call.run stored).1.buffer field' = stored.buffer field' ∨
      ∃ outcome, (call.run stored).2 = .wrote outcome ∧
        ∀ byte ∈ (call.run stored).1.trashOf field', byte = stored.paddingByte field' := by
  rw [run_call_setter hcall]
  by_cases hshows : stored.alreadyShows field' text = true
  · rw [if_pos hshows]
    exact .inl ⟨rfl, rfl⟩
  · rw [if_neg hshows]
    exact .inr ⟨_, rfl, stored.eq_paddingByte_of_mem_trashOf_edit field' text⟩

/-- After a setter a field shows zeros if and only if it did before and the setter has not ended it.
-/
theorem showsZeros_setter_iff :
    (call.run stored).1.ShowsZeros field ↔
      stored.ShowsZeros field ∧ ¬call.EndsZeros stored field := by
  rw [endsZeros_setter_iff hcall, run_call_setter hcall]
  by_cases hshows : stored.alreadyShows field' text = true
  · simp [hshows]
  · rw [if_neg hshows]
    by_cases hfield : field' = field
    · subst hfield
      rw [StoredNames.showsZeros_edit_iff]
      simp
    · have hbuffer : (stored.edit field' text).1.buffer field = stored.buffer field := by
        rw [StoredNames.buffer_edit_of_ne (Ne.symm hfield)]
      rw [StoredNames.showsZeros_congr (StoredNames.locale_edit ..) hbuffer]
      simp [hfield]

end Setter

section ClearNickname

variable {call : Call} {language : Language}
variable (hcall : call.operation = .clearNickname language) (stored : StoredNames)
include hcall

theorem run_call_clearNickname :
    (call.run stored).1 = (stored.clearNickname call.names language).1 := by
  rw [Call.run, hcall]
  rfl

/-- Clearing ends the zeros of the nickname only. -/
theorem endsZeros_clearNickname_iff : call.EndsZeros stored field ↔ field = .nickname := by
  rw [Call.EndsZeros, hcall]
  constructor
  · rintro (⟨text, -, hsetter, -⟩ | ⟨hfield, -⟩)
    · exact absurd hsetter.symm (Operation.setter_ne_clearNickname field text language)
    · exact hfield
  · intro hfield
    exact .inr ⟨hfield, language, rfl⟩

/-- After clearing a field shows zeros if and only if it did before and is not the nickname. -/
theorem showsZeros_clearNickname_iff (field : Field) :
    (call.run stored).1.ShowsZeros field ↔
      stored.ShowsZeros field ∧ ¬call.EndsZeros stored field := by
  rw [run_call_clearNickname hcall, endsZeros_clearNickname_iff hcall]
  cases field with
  | nickname =>
    have hnot := stored.not_showsZeros_clearNickname call.names language
    exact ⟨fun h => absurd h hnot, fun h => absurd rfl h.2⟩
  | trainer =>
    have hsame : (stored.clearNickname call.names language).1.ShowsZeros .trainer ↔
        stored.ShowsZeros .trainer :=
      StoredNames.showsZeros_congr (stored.locale_clearNickname call.names language)
        (stored.trainer_clearNickname call.names language)
    rw [hsame]
    simp

end ClearNickname

/-- A call that sets a name keeps the zeros of a field unless it ends them, and brings none. -/
theorem showsZeros_run_iff {call : Call} (hsets : call.operation.SetsName)
    (stored : StoredNames) (field : Field) :
    (call.run stored).1.ShowsZeros field ↔
      stored.ShowsZeros field ∧ ¬call.EndsZeros stored field := by
  generalize hcall : call.operation = operation at hsets
  cases hsets with
  | setter field' text => exact showsZeros_setter_iff hcall stored
  | clearNickname language => exact showsZeros_clearNickname_iff hcall stored field

/-! ## A history of calls -/

/-- What holds at every place of a history holds at its first call and at every later one. -/
theorem forall_split_cons_iff {P : List Call → Call → Prop} {first : Call} {calls : List Call} :
    (∀ past call later, first :: calls = past ++ call :: later → P past call) ↔
      P [] first ∧ ∀ past call later, calls = past ++ call :: later → P (first :: past) call := by
  constructor
  · intro h
    refine ⟨h [] first calls rfl, fun past call later hsplit => ?_⟩
    exact h (first :: past) call later (by rw [hsplit]; rfl)
  · rintro ⟨hfirst, hlater⟩ past call later hsplit
    cases past with
    | nil =>
      obtain ⟨rfl, -⟩ := List.cons.inj hsplit
      exact hfirst
    | cons first' past =>
      obtain ⟨rfl, hcalls⟩ := List.cons.inj hsplit
      exact hlater past call later hcalls

/-- A field shows zeros after a history if it did before and no call has ended it. -/
theorem showsZeros_runAll_iff (stored : StoredNames) {calls : List Call}
    (hsets : ∀ call ∈ calls, call.operation.SetsName) (field : Field) :
    (Call.runAll stored calls).ShowsZeros field ↔
      stored.ShowsZeros field ∧ ∀ past call later, calls = past ++ call :: later →
        ¬call.EndsZeros (Call.runAll stored past) field := by
  induction calls generalizing stored with
  | nil => simp [Call.runAll]
  | cons first calls ih =>
    obtain ⟨hfirst, hcalls⟩ := List.forall_mem_cons.mp hsets
    rw [Call.runAll_cons, ih (first.run stored).1 hcalls, showsZeros_run_iff hfirst, and_assoc,
      forall_split_cons_iff]
    rfl

/-- The style of a field along a history of calls that set names, each with default names of its
own. A setter leaves the bytes of its field alone, or fills the trash with zeros if the field
showed zeros just before and with the fixed byte if not; clearing the nickname fills it with the
fixed byte. So a field shows zeros in the end if and only if it did at first and no call has ended
it, by a name without trash or by clearing the nickname. -/
theorem style_runAll (stored : StoredNames) (calls : List Call)
    (hsets : ∀ call ∈ calls, call.operation.SetsName) (field : Field) :
    (∀ past call later, calls = past ++ call :: later →
      let before := Call.runAll stored past
      let after := call.run before
      (∀ text, call.operation = .setter field text →
        after.2 = .unchanged ∧ after.1.buffer field = before.buffer field ∨
          ∃ outcome, after.2 = .wrote outcome ∧ ∀ byte ∈ after.1.trashOf field,
            byte = if before.ShowsZeros field then 0 else fixedFill) ∧
      (∀ language, call.operation = .clearNickname language →
        ∀ byte ∈ after.1.trashOf .nickname, byte = fixedFill)) ∧
    ((Call.runAll stored calls).ShowsZeros field ↔
      stored.ShowsZeros field ∧ ∀ past call later, calls = past ++ call :: later →
        ¬call.EndsZeros (Call.runAll stored past) field) := by
  refine ⟨?_, showsZeros_runAll_iff stored hsets field⟩
  intro past call later _ before after
  constructor
  · intro text hcall
    exact fills_setter hcall before
  · intro language hcall
    have hafter : after.1 = (before.clearNickname call.names language).1 :=
      run_call_clearNickname hcall before
    rw [hafter]
    exact before.eq_fixedFill_of_mem_trashOf_clearNickname call.names language

/-- Zeros behind a name end with one as long as the cap allows, which leaves no trash. The space in
it is a zero too, but one of the name. -/
theorem style_runAll_spent :
    let stored := ((StoredNames.blank .japanese 3).write .trainer .zero 5 ['　', 'あ']).1
    let full : Call := ⟨fun _ _ _ => [], .setTrainerName ['い', '　', 'う', 'え', 'お', 'か']⟩
    let short : Call := ⟨fun _ _ _ => [], .setTrainerName ['き']⟩
    (∀ call ∈ [full, short], call.operation.SetsName) ∧
      stored.ShowsZeros .trainer ∧ ¬(Call.runAll stored [full, short]).ShowsZeros .trainer := by
  intro stored full short
  have hsets : ∀ call ∈ [full, short], call.operation.SetsName := by
    intro call hmem
    rcases List.mem_cons.mp hmem with rfl | hmem
    · exact .setter .trainer _
    · rw [List.mem_singleton.mp hmem]
      exact .setter .trainer _
  have hends : full.EndsZeros stored .trainer := by
    refine .inl ⟨_, (stored.edit .trainer ['い', '　', 'う', 'え', 'お', 'か']).2, rfl, ?_⟩
    decide +kernel
  refine ⟨hsets, by decide +kernel, fun hzeros => ?_⟩
  have hkept := ((style_runAll stored [full, short] hsets .trainer).2.mp hzeros).2
  exact hkept [] full [short] rfl hends

end SaveNames
