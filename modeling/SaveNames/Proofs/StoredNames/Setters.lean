import SaveNames.Proofs.Greedy
import SaveNames.Proofs.StoredNames.PaddingStyle

/-!
# What a setter leaves behind

A setter writes its text unless the field shows it already. Two things follow for every record,
whatever raw bytes it holds and however much of the text could be written.

* **Setting a name twice is setting it once.** An edit made again finds another style only if it
  has left no trash that would show its own, and then the style makes no difference
  (`edit_edit`).
* **The field shows what the outcome tells**: the placed characters, apostrophes in the locale's
  form (`name_edit`). So it shows the text itself exactly if the outcome is complete and no
  apostrophe was changed (`name_edit_eq_iff`).
-/

namespace SaveNames

namespace StoredNames

variable (stored : StoredNames) (field : Field) (text : Text)

/-! ## Setting twice -/

/-- The bytes of an edit are those that the same edit leaves when it is made again. -/
theorem buffer_edit_edit :
    ((stored.edit field text).1.edit field text).1.buffer field =
      (stored.edit field text).1.buffer field := by
  have hpadding : stored.paddingStyle field = .zero ∨ stored.paddingStyle field = .fixed := by
    rw [paddingStyle_eq]
    split
    · exact .inl rfl
    · exact .inr rfl
  have hbuffer := buffer_edit_eq_fresh_self stored field text
  rw [buffer_edit_eq_fresh (stored.edit field text).1, fresh_paddingStyle hpadding hbuffer]

/-- What an edit reports depends on the locale and on the text only. -/
theorem outcome_edit_eq_fresh :
    (stored.edit field text).2 =
      (encodeFresh stored.locale .fixed (stored.layout.maxChars field)
        (stored.layout.length field) text).2 := by
  have hlength : (stored.buffer field).length =
      (blankBuffer (stored.layout.length field)).length := by
    rw [length_blankBuffer, length_buffer]
  rw [outcome_edit, encodeFresh, outcome_encode_congr _ .fixed hlength]

/-- Making an edit again changes nothing of the record and reports the same outcome. -/
theorem edit_edit :
    (stored.edit field text).1.edit field text = stored.edit field text := by
  have hlocale : (stored.edit field text).1.locale = stored.locale := locale_edit stored field text
  apply Prod.ext
  · have hbytes := buffer_edit_edit stored field text
    rw [buffer_edit] at hbytes
    exact withBuffer_of_eq _ _ _ _ hbytes
  · rw [outcome_edit_eq_fresh, outcome_edit_eq_fresh, layout, hlocale]
    rfl

/-! ## Setting, then reading -/

/-- After an edit the field shows the characters that were placed, folded. -/
theorem name_edit :
    (stored.edit field text).1.name field =
      (text.take (stored.edit field text).2.chars).map stored.locale.fold := by
  rw [name, locale_edit, buffer_edit, decode_encode]
  rfl

theorem chars_edit_le : (stored.edit field text).2.chars ≤ text.length := by
  have hmin := chars_encode_le stored.locale (stored.paddingStyle field)
    (stored.layout.maxChars field) text (stored.buffer field)
  rw [outcome_edit]
  omega

/-- An edited field shows the text itself if and only if all of it was placed and nothing in it
was changed. -/
theorem name_edit_eq_iff :
    (stored.edit field text).1.name field = text ↔
      (stored.edit field text).2.isComplete = true ∧
        ∀ ch ∈ text, stored.locale.fold ch = ch := by
  have hle := chars_edit_le stored field text
  have hcomplete : (stored.edit field text).2.isComplete = true ↔
      (stored.edit field text).2.chars = text.length := by
    rw [outcome_edit]
    exact isComplete_encode_iff ..
  rw [name_edit, hcomplete]
  constructor
  · intro hname
    have hlength := congrArg List.length hname
    rw [List.length_map, List.length_take] at hlength
    have hchars : (stored.edit field text).2.chars = text.length := by omega
    rw [hchars, List.take_length] at hname
    exact ⟨hchars, List.map_inj_left.mp (hname.trans (List.map_id text).symm)⟩
  · rintro ⟨hchars, hfold⟩
    rw [hchars, List.take_length]
    exact (List.map_inj_left.mpr hfold).trans (List.map_id text)

end StoredNames

/-- Setting a name twice is setting it once: the second call leaves the whole record as it is, and
finds nothing to do or reports what the first reported. -/
theorem setName_setName (stored : StoredNames) (field : Field) (text : Text) :
    let first := stored.setName field text
    let second := first.1.setName field text
    second.1 = first.1 ∧ (second.2 = none ∨ second.2 = first.2) := by
  intro first second
  rcases stored.setName_cases field text with ⟨hfirst, -⟩ | hfirst
  · have hrecord : first.1 = stored := congrArg Prod.fst hfirst
    have hsecond : second = (stored, none) := by
      show first.1.setName field text = _
      rw [hrecord, hfirst]
    rw [hsecond, hrecord]
    exact ⟨rfl, .inl rfl⟩
  · have hrecord : first.1 = (stored.edit field text).1 := congrArg Prod.fst hfirst
    rcases first.1.setName_cases field text with ⟨hsecond, -⟩ | hsecond
    · rw [show second = _ from hsecond]
      exact ⟨rfl, .inl rfl⟩
    · -- a text that was cut or changed is written again, to the same bytes
      have hedit : first.1.edit field text = stored.edit field text := by
        rw [hrecord, StoredNames.edit_edit]
      rw [hedit] at hsecond
      have hsame : second = first := hsecond.trans hfirst.symm
      rw [hsame]
      exact ⟨rfl, .inr rfl⟩

/-- What a field shows after its setter. A text that was written shows as its placed part, with
apostrophes in the locale's form; and the field shows the text itself if and only if there was
nothing to write, or the outcome is complete and the text has no apostrophe that is changed. -/
theorem name_setName (stored : StoredNames) (field : Field) (text : Text) :
    let result := stored.setName field text
    (∀ outcome, result.2 = some outcome →
      outcome.chars ≤ text.length ∧
        result.1.name field = (text.take outcome.chars).map stored.locale.fold) ∧
    (result.1.name field = text ↔
      result.2 = none ∨ ∃ outcome, result.2 = some outcome ∧ outcome.isComplete = true ∧
        ∀ ch ∈ text, stored.locale.fold ch = ch) ∧
    ∀ ch, stored.locale.fold ch ≠ ch ↔ ch = '\'' ∨ stored.locale = .japanese ∧ ch = '’' := by
  intro result
  have hfold : ∀ ch, stored.locale.fold ch ≠ ch ↔
      ch = '\'' ∨ stored.locale = .japanese ∧ ch = '’' := fun ch => Locale.fold_ne_self_iff
  rcases stored.setName_cases field text with ⟨hresult, hname⟩ | hresult
  · rw [show result = _ from hresult]
    refine ⟨?_, ⟨fun _ => .inl rfl, fun _ => hname⟩, hfold⟩
    intro outcome houtcome
    cases houtcome
  · rw [show result = _ from hresult]
    refine ⟨?_, ?_, hfold⟩
    · intro outcome houtcome
      obtain rfl := Option.some.inj houtcome
      exact ⟨stored.chars_edit_le field text, stored.name_edit field text⟩
    · show (stored.edit field text).1.name field = text ↔ _
      rw [StoredNames.name_edit_eq_iff]
      constructor
      · intro hwhole
        exact .inr ⟨_, rfl, hwhole⟩
      · rintro (hnone | ⟨outcome, houtcome, hwhole⟩)
        · cases hnone
        · obtain rfl := Option.some.inj houtcome
          exact hwhole

end SaveNames
