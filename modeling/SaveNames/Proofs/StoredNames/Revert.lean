import SaveNames.Proofs.StoredNames.PaddingStyle
import SaveNames.Proofs.StoredNames.Reachable

/-!
# Taking edits back

**Setting a field to the text that it showed at first gives the first bytes back**, whatever was
set in between. The first bytes must have been written with one of the two paddings that edits
use; and if it was zero, the trash must not run out on the way, because an edit reads the padding
off the trash.

The invariant of the way is `WrittenIn`: the buffer is some text written with the first padding,
and the padding can still be read off it.
-/

namespace SaveNames

/-- The calls by which one field is edited: its setter, and the mark of a nickname. -/
inductive Operation.Edits (field : Field) : Operation → Prop
  | setter (text : Text) : Edits field (.setter field text)
  | setNicknamed (nicknamed : Bool) : Edits field (.setNicknamed nicknamed)

namespace StoredNames

/-- Some text was written into the field with the padding, and an edit finds this padding. -/
structure WrittenIn (stored : StoredNames) (field : Field) (padding : Padding) : Prop where
  exists_text : ∃ text, stored.buffer field = stored.fresh field padding text
  shown : padding = .fixed ∨ padding = .zero ∧ stored.trashOf field ≠ []

variable {stored : StoredNames} {field : Field} {padding : Padding}

/-- The style of the field is the padding that it was written with. -/
theorem WrittenIn.paddingStyle_eq (h : stored.WrittenIn field padding) :
    stored.paddingStyle field = padding := by
  obtain ⟨text, htext⟩ := h.exists_text
  exact paddingStyle_of_buffer_eq h.shown htext

/-- An edit writes the new text from scratch. -/
theorem WrittenIn.buffer_edit (h : stored.WrittenIn field padding) (text : Text) :
    (stored.edit field text).1.buffer field = stored.fresh field padding text := by
  rw [buffer_edit_eq_fresh, h.paddingStyle_eq]

/-- The text that the field shows is enough to write its buffer. -/
theorem WrittenIn.fresh_name (h : stored.WrittenIn field padding) :
    stored.fresh field padding (stored.name field) = stored.buffer field := by
  obtain ⟨text, htext⟩ := h.exists_text
  rw [name, htext, fresh_decode_fresh]

/-! ## One call -/

/-- The setter leaves its text in the field, written from scratch, or there was nothing to do
because the field showed it. Either way the buffer is that of the shown text. -/
theorem WrittenIn.buffer_setter (h : stored.WrittenIn field padding) (names : SpeciesNames)
    (text : Text) :
    ((Operation.setter field text).run names stored).1.buffer field =
      stored.fresh field padding text := by
  rw [run_setter]
  split
  · next hshows => rw [← name_eq_of_alreadyShows hshows, h.fresh_name]
  · exact h.buffer_edit text

/-- One call of an editor keeps the invariant, if there is still trash behind it. -/
theorem WrittenIn.run (h : stored.WrittenIn field padding) (names : SpeciesNames)
    {operation : Operation} (hedits : operation.Edits field)
    (htrash : ∀ text, operation = .setter field text → padding = .fixed ∨
      (operation.run names stored).1.trashOf field ≠ []) :
    (operation.run names stored).1.WrittenIn field padding := by
  have hlocale := locale_run names stored operation
  cases hedits with
  | setter text =>
    refine ⟨⟨text, ?_⟩, ?_⟩
    · rw [fresh_congr hlocale]
      exact h.buffer_setter names text
    · rcases h.shown with hfixed | ⟨hzero, -⟩
      · exact .inl hfixed
      · exact (htrash text rfl).imp id fun hne => ⟨hzero, hne⟩
  | setNicknamed nicknamed => cases field <;> exact ⟨h.exists_text, h.shown⟩

/-! ## A history of calls -/

/-- A history of calls keeps the invariant, if there is still trash behind every setter. -/
theorem WrittenIn.runAll (h : stored.WrittenIn field padding) (names : SpeciesNames)
    {history : List Operation} (hedits : ∀ operation ∈ history, operation.Edits field)
    (htrash : padding = .fixed ∨ ∀ past text, past ++ [.setter field text] <+: history →
      (Operation.runAll names stored (past ++ [.setter field text])).1.trashOf field ≠ []) :
    (Operation.runAll names stored history).1.WrittenIn field padding := by
  induction history generalizing stored with
  | nil => exact h
  | cons operation history ih =>
    obtain ⟨hoperation, hhistory⟩ := List.forall_mem_cons.mp hedits
    -- a beginning of the rest of the history is, with the first call, one of the whole history
    refine ih (h.run names hoperation ?_) hhistory ?_
    · rintro text rfl
      exact htrash.imp id fun hne => hne [] text (List.prefix_append [_] history)
    · refine htrash.imp id fun hne past text hpast => ?_
      exact hne (operation :: past) text ((List.prefix_cons_inj operation).mpr hpast)

/-- A buffer that the game wrote with a padding of edits is ready for edits. Without trash the
padding leaves no mark, and edits take it for the fixed one. -/
theorem writtenIn_of_buffer_eq (hpadding : padding = .zero ∨ padding = .fixed) {text : Text}
    (hbuffer : stored.buffer field = stored.fresh field padding text) :
    stored.WrittenIn field .fixed ∨ padding = .zero ∧ stored.WrittenIn field .zero := by
  rcases hpadding with rfl | rfl
  · by_cases hnil : stored.trashOf field = []
    · left
      rw [trashOf, hbuffer] at hnil
      exact ⟨⟨text, hbuffer.trans (encodeFresh_eq_of_trash_eq_nil hnil)⟩, .inl rfl⟩
    · exact .inr ⟨rfl, ⟨text, hbuffer⟩, .inr ⟨rfl, hnil⟩⟩
  · exact .inl ⟨⟨text, hbuffer⟩, .inl rfl⟩

end StoredNames

/-! ## The way back -/

/-- Whatever was set in between: setting a field to the text that it showed at first gives its
first bytes back. If these were padded with zeros, every setter on the way has to leave some
trash from which the next one can tell so. -/
theorem revert_restores (names : SpeciesNames) (stored : StoredNames) (field : Field)
    (padding : Padding) (text : Text) (history : List Operation)
    (hpadding : padding = .zero ∨ padding = .fixed)
    (hbuffer : stored.buffer field = stored.fresh field padding text)
    (hedits : ∀ operation ∈ history, operation.Edits field)
    (htrash : padding = .fixed ∨ ∀ past text, past ++ [.setter field text] <+: history →
      (Operation.runAll names stored (past ++ [.setter field text])).1.trashOf field ≠ []) :
    let edited := (Operation.runAll names stored history).1
    ((Operation.setter field (stored.name field)).run names edited).1.buffer field =
      stored.buffer field := by
  intro edited
  -- the last setter writes the text that was shown at first, with the padding that the invariant
  -- still names, and the first buffer is that text written with that padding
  have hrestored : ∀ padding', stored.WrittenIn field padding' →
      edited.WrittenIn field padding' →
        ((Operation.setter field (stored.name field)).run names edited).1.buffer field =
          stored.buffer field := by
    intro padding' hstored hedited
    have hlocale : edited.locale = stored.locale := locale_runAll names stored history
    rw [hedited.buffer_setter names, StoredNames.fresh_congr hlocale, hstored.fresh_name]
  rcases StoredNames.writtenIn_of_buffer_eq hpadding hbuffer with hfixed | ⟨rfl, hzero⟩
  · exact hrestored .fixed hfixed (hfixed.runAll names hedits (.inl rfl))
  · exact hrestored .zero hzero (hzero.runAll names hedits htrash)

/-- A first name with an apostrophe, and a history that cuts a text at a character without a code
and then marks the nickname. -/
theorem revert_restores_marked :
    let stored := ((StoredNames.blank .japanese 3).write .nickname .zero 5 ['ア', '\'']).1
    let history := [Operation.setNickname ['イ', '皮', 'ウ'], .setNicknamed true]
    (∀ past text, past ++ [.setter .nickname text] <+: history →
      (Operation.runAll (fun _ _ _ => []) stored (past ++ [.setter .nickname text])).1.trashOf
        .nickname ≠ []) ∧
      (((Operation.setter .nickname (stored.name .nickname)).run (fun _ _ _ => [])
        (Operation.runAll (fun _ _ _ => []) stored history).1).1).buffer .nickname =
          stored.buffer .nickname := by
  intro stored history
  have htrash : ∀ past text, past ++ [Operation.setter .nickname text] <+: history →
      (Operation.runAll (fun _ _ _ => []) stored (past ++ [.setter .nickname text])).1.trashOf
        .nickname ≠ [] := by
    -- the only setter of the history is its first call
    rintro past text ⟨rest, hrest⟩
    rcases past with _ | ⟨first, _ | ⟨second, past⟩⟩
    · have htext : text = ['イ', '皮', 'ウ'] := Operation.setNickname.inj (List.cons.inj hrest).1
      subst htext
      decide +kernel
    · cases (List.cons.inj (List.cons.inj hrest).2).1
    · cases past <;> cases (List.cons.inj (List.cons.inj hrest).2).2
  refine ⟨htrash, revert_restores _ stored .nickname .zero ['ア', '\''] history (.inl rfl) rfl ?_
    (.inr htrash)⟩
  intro operation hmem
  rcases List.mem_cons.mp hmem with rfl | hmem
  · exact .setter _
  · rw [List.mem_singleton.mp hmem]
    exact .setNicknamed true

end SaveNames
