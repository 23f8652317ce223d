import Mathlib.Data.List.TakeDrop
import SaveNames.Proofs.StoredNames.Setters

/-!
# Writing back what is shown

An editor that hands every name back as it was shown must not touch bytes that nobody edited.

* A record whose nickname is not marked as one **keeps its buffers**, whatever raw bytes they hold:
  the setters find their texts in the fields and write nothing (`setName_name`), and the other
  calls change the species and the Korean flag only (`exists_runAll_eq`).
* A marked nickname is written again. Everything that a buffer shows has a code and fits back into
  the buffer, so **only the cap** can take something away (`outcome_edit_name`). It does so where a
  buffer is full of letters (`maxNicknameChars_lt_length_unterminated`).
-/

namespace SaveNames

/-- One call of an editor that changes no name. -/
inductive WriteBack
  /-- The setter of a field gets the text that the field shows. -/
  | name (field : Field)
  | setSpecies (species : UInt16)
  | setKorean (korean : Bool)
  /-- The nickname is no longer marked as one. -/
  | unmark
deriving DecidableEq, Repr

namespace WriteBack

/-- The record after one call. -/
def run (stored : StoredNames) : WriteBack → StoredNames
  | .name field => (stored.setName field (stored.name field)).1
  | .setSpecies species => stored.setSpecies species
  | .setKorean korean => stored.setKorean korean
  | .unmark => stored.setNicknamed false

/-- The record after a history of calls. Every setter gets what its field shows by then. -/
def runAll (stored : StoredNames) (calls : List WriteBack) : StoredNames := calls.foldl run stored

end WriteBack

/-! ## Records without a mark -/

namespace StoredNames

/-- Raw bytes of the layout's lengths make a record, and its nickname is not marked. -/
theorem ofBuffers_eq {locale : Locale} {nickname trainer : Bytes}
    (hnickname : nickname.length = locale.layout.nicknameLength)
    (htrainer : trainer.length = locale.layout.trainerLength) (generation : UInt8) :
    ofBuffers locale generation nickname trainer =
      .ok { locale, generation, nickname, trainer
            nickname_length := hnickname, trainer_length := htrainer } := by
  unfold ofBuffers
  rw [dif_pos hnickname, dif_pos htrainer]

variable {stored : StoredNames}

/-- A field of a record without a mark is found to show its own name. -/
theorem alreadyShows_name (h : stored.nicknamed = false) (field : Field) :
    stored.alreadyShows field (stored.name field) = true := by
  cases field with
  | nickname =>
    unfold alreadyShows
    rw [h]
    simp
  | trainer =>
    unfold alreadyShows
    simp

/-- A setter that gets the shown text finds nothing to do. -/
theorem setName_name (h : stored.nicknamed = false) (field : Field) :
    stored.setName field (stored.name field) = (stored, none) := by
  rw [setName_eq, if_pos (alreadyShows_name h field)]

theorem setNicknamed_false (h : stored.nicknamed = false) : stored.setNicknamed false = stored := by
  unfold setNicknamed
  rw [← h]

end StoredNames

namespace WriteBack

variable {stored : StoredNames}

/-- One call changes nothing of a record without a mark but the species and the Korean flag. -/
theorem exists_run_eq (h : stored.nicknamed = false) (call : WriteBack) :
    ∃ species korean, run stored call = (stored.setSpecies species).setKorean korean := by
  cases call with
  | name field =>
    refine ⟨stored.species, stored.korean, ?_⟩
    show (stored.setName field (stored.name field)).1 = _
    rw [StoredNames.setName_name h]
    rfl
  | setSpecies species => exact ⟨species, stored.korean, rfl⟩
  | setKorean korean => exact ⟨stored.species, korean, rfl⟩
  | unmark =>
    refine ⟨stored.species, stored.korean, ?_⟩
    show stored.setNicknamed false = _
    rw [StoredNames.setNicknamed_false h]
    rfl

/-- Nor does a history of calls. -/
theorem exists_runAll_eq (h : stored.nicknamed = false) (calls : List WriteBack) :
    ∃ species korean, runAll stored calls = (stored.setSpecies species).setKorean korean := by
  induction calls generalizing stored with
  | nil => exact ⟨stored.species, stored.korean, rfl⟩
  | cons call calls ih =>
    obtain ⟨species, korean, hcall⟩ := exists_run_eq h call
    -- what the first call changes is no mark, and is overwritten by what the later calls change
    have hnicknamed : ((stored.setSpecies species).setKorean korean).nicknamed = false := h
    obtain ⟨species', korean', hcalls⟩ := ih hnicknamed
    refine ⟨species', korean', ?_⟩
    show runAll (run stored call) calls = _
    rw [hcall, hcalls]
    rfl

/-- No history of calls changes a byte of a record without a mark. -/
theorem buffer_runAll (h : stored.nicknamed = false) (calls : List WriteBack) (field : Field) :
    (runAll stored calls).buffer field = stored.buffer field := by
  obtain ⟨species, korean, hcalls⟩ := exists_runAll_eq h calls
  rw [hcalls]
  cases field with
  | nickname => rfl
  | trainer => rfl

end WriteBack

/-! ## Marked nicknames -/

namespace StoredNames

section Edit

variable (stored : StoredNames) (field : Field)

/-- Only the cap can keep an edit from writing all of the text that its field shows. -/
theorem outcome_edit_name :
    (stored.edit field (stored.name field)).2.chars =
        min (stored.layout.maxChars field) (stored.name field).length ∧
      (stored.edit field (stored.name field)).2.truncation = none := by
  have hfits : stored.locale.Fits (stored.buffer field).length (stored.name field) :=
    fits_decode_length stored.locale (stored.buffer field)
  exact outcome_encode_of_fits (stored.paddingStyle field) (stored.layout.maxChars field) hfits

/-- A name that is written back is cut at the cap and not changed otherwise. -/
theorem name_edit_name :
    (stored.edit field (stored.name field)).1.name field =
      (stored.name field).take (stored.layout.maxChars field) := by
  have hfold : (stored.name field).map stored.locale.fold = stored.name field :=
    map_fold_decode stored.locale (stored.buffer field)
  rw [name_edit, (outcome_edit_name stored field).1, ← List.take_eq_take_min, List.map_take, hfold]

theorem name_edit_name_eq_iff :
    (stored.edit field (stored.name field)).1.name field = stored.name field ↔
      (stored.name field).length ≤ stored.layout.maxChars field := by
  rw [name_edit_name, List.take_eq_self_iff]

end Edit

/-- A marked nickname is always written. -/
theorem setNickname_of_nicknamed {stored : StoredNames} (h : stored.nicknamed = true)
    (text : Text) :
    stored.setNickname text =
      ((stored.edit .nickname text).1, some (stored.edit .nickname text).2) := by
  unfold setNickname
  simp [h]

/-- A record with a marked nickname that fills its buffer. The byte is a letter in both
single-byte sets. -/
def unterminated (locale : Locale) : StoredNames :=
  { blank locale 3 with
    nicknamed := true
    nickname := List.replicate locale.layout.nicknameLength 0xBB
    nickname_length := List.length_replicate }

/-- Raw bytes can show a longer nickname than a player can enter. -/
theorem maxNicknameChars_lt_length_unterminated (locale : Locale) :
    (unterminated locale).layout.maxNicknameChars <
      ((unterminated locale).name .nickname).length := by
  cases locale with
  | japanese => decide +kernel
  | international => decide +kernel

end StoredNames

/-- Writing back what is shown. In a record over any raw bytes, a history of calls that give the
setters what their fields show, with changes of the species and of the Korean flag in between,
leaves both buffers as they were. A nickname that is marked as one is written again: nothing but
the cap takes characters away, so it shows the same if and only if it is within the cap, which is
not the case for all raw bytes. -/
theorem write_back_shown_names :
    (∀ locale generation nickname trainer,
      nickname.length = locale.layout.nicknameLength →
      trainer.length = locale.layout.trainerLength →
      ∃ stored, StoredNames.ofBuffers locale generation nickname trainer = .ok stored ∧
        ∀ calls, (WriteBack.runAll stored calls).nickname = nickname ∧
          (WriteBack.runAll stored calls).trainer = trainer) ∧
    (∀ stored : StoredNames, stored.nicknamed = true →
      let shown := stored.name .nickname
      let cap := stored.layout.maxNicknameChars
      let result := stored.setNickname shown
      ∃ outcome, result.2 = some outcome ∧ outcome.truncation = none ∧
        outcome.chars = min cap shown.length ∧
        result.1.name .nickname = shown.take cap ∧
        (result.1.name .nickname = shown ↔ shown.length ≤ cap)) ∧
    ∀ locale, ∃ stored : StoredNames, stored.locale = locale ∧ stored.nicknamed = true ∧
      stored.layout.maxNicknameChars < (stored.name .nickname).length := by
  refine ⟨?_, ?_, ?_⟩
  · intro locale generation nickname trainer hnickname htrainer
    refine ⟨_, StoredNames.ofBuffers_eq hnickname htrainer generation, fun calls => ?_⟩
    exact ⟨WriteBack.buffer_runAll rfl calls .nickname, WriteBack.buffer_runAll rfl calls .trainer⟩
  · intro stored hnicknamed shown cap result
    obtain ⟨hchars, htruncation⟩ := stored.outcome_edit_name .nickname
    have hresult : result = ((stored.edit .nickname shown).1,
        some (stored.edit .nickname shown).2) := StoredNames.setNickname_of_nicknamed hnicknamed shown
    rw [hresult]
    exact ⟨_, rfl, htruncation, hchars, stored.name_edit_name .nickname,
      stored.name_edit_name_eq_iff .nickname⟩
  · intro locale
    exact ⟨.unterminated locale, rfl, rfl,
      StoredNames.maxNicknameChars_lt_length_unterminated locale⟩

/-- A nickname that ends in a lead byte, a trainer's name with a zero and other bytes behind its
terminator, and a marked nickname of eleven letters, which loses the last. -/
theorem write_back_shown_names_foreign :
    let nickname : Bytes := [0xBB, 0xAF, 0x02, 0x00, 0xBC, 0x00, 0x06, 0xB4, 0xBD, 0xBE, 0x01]
    let trainer : Bytes := [0x01, 0xFF, 0xBB, 0xFF, 0xAA, 0x00, 0x50, 0xFF, 0xAF, 0x02, 0x03]
    let marked := StoredNames.unterminated .international
    (nickname.length = 11 ∧ trainer.length = 11 ∧
      ∃ stored, StoredNames.ofBuffers .international 3 nickname trainer = .ok stored ∧
        (WriteBack.runAll stored
          [.name .nickname, .setSpecies 29, .setKorean true, .unmark, .name .trainer]).nickname =
            nickname) ∧
      marked.nicknamed = true ∧
      (marked.setNickname (marked.name .nickname)).1.name .nickname =
        (marked.name .nickname).take 10 ∧
      (marked.setNickname (marked.name .nickname)).1.name .nickname ≠ marked.name .nickname := by
  intro nickname trainer marked
  obtain ⟨hunmarked, hmarked, -⟩ := write_back_shown_names
  obtain ⟨stored, hstored, hcalls⟩ := hunmarked .international 3 nickname trainer rfl rfl
  obtain ⟨outcome, -, -, -, htake, hsame⟩ := hmarked marked rfl
  refine ⟨⟨rfl, rfl, stored, hstored, (hcalls _).1⟩, rfl, htake, fun hname => ?_⟩
  have hover := StoredNames.maxNicknameChars_lt_length_unterminated .international
  exact absurd (hsame.mp hname) (Nat.not_le_of_lt hover)

end SaveNames
