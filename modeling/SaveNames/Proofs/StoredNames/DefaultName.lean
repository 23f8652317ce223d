import SaveNames.Proofs.DecimalPoint
import SaveNames.Proofs.StoredNames.PaddingStyle

/-!
# Taking the nickname away

Clearing a nickname writes the default name and then patches its bytes. In effect it **writes one
text into a fresh buffer**: the default name, with periods for its decimal points where these are
replaced (`clearNickname_eq`). So nothing of the old nickname has any bearing on the result, the
trash is all fixed fill (`eq_fixedFill_of_mem_trashOf_clearNickname`), and clearing again changes
nothing.

The cap of the layout plays no part in this, only the length of the buffer: a default name may be
longer than any name that a player can enter.
-/

namespace SaveNames

namespace StoredNames

variable (stored : StoredNames) (names : SpeciesNames) (language : Language)

/-! ## The cleared record -/

/-- The default name of the record's species. -/
def defaultName : Text := names stored.species language stored.generation

/-- The nickname buffer with a text written into it from scratch, without a cap of its own. -/
def freshNickname (text : Text) : Bytes × Outcome :=
  encodeFresh stored.locale .fixed stored.layout.nicknameLength stored.layout.nicknameLength text

theorem length_freshNickname (text : Text) :
    (stored.freshNickname text).1.length = stored.layout.nicknameLength :=
  length_encodeFresh ..

/-- Nothing of the old nickname is left where a text is written over it with the fixed fill. -/
theorem encode_nickname (text : Text) :
    encode stored.locale .fixed stored.nickname.length text stored.nickname =
      stored.freshNickname text := by
  have hfill : Padding.fill? .fixed = some fixedFill := rfl
  rw [encode_eq_encodeFresh hfill, stored.nickname_length]
  rfl

/-- The nickname of the cleared record is the stored text of the default name, written from scratch.
-/
theorem nickname_clearNickname :
    (stored.clearNickname names language).1.nickname =
      (stored.freshNickname
        (storedText stored.locale stored.korean (stored.defaultName names language))).1 := by
  show (replaceDecimalPoints stored.locale stored.korean
    (encode stored.locale .fixed stored.nickname.length (stored.defaultName names language)
      stored.nickname).1).1 = _
  rw [replaceDecimalPoints_encode, encode_nickname]

/-- The outcome is that of the default name before its decimal points are replaced. -/
theorem outcome_clearNickname :
    (stored.clearNickname names language).2 =
      (stored.freshNickname (stored.defaultName names language)).2 := by
  rw [← encode_nickname]
  rfl

/-- The cleared record: a new nickname without its mark, all else as before. -/
theorem clearNickname_eq :
    stored.clearNickname names language =
      ({ stored with
          nickname := (stored.freshNickname
            (storedText stored.locale stored.korean (stored.defaultName names language))).1
          nickname_length := stored.length_freshNickname _
          nicknamed := false },
        (stored.freshNickname (stored.defaultName names language)).2) := by
  apply Prod.ext
  · simp only [← nickname_clearNickname]
    rfl
  · exact outcome_clearNickname stored names language

theorem trainer_clearNickname :
    (stored.clearNickname names language).1.buffer .trainer = stored.buffer .trainer := by
  rw [clearNickname_eq]
  rfl

theorem locale_clearNickname :
    (stored.clearNickname names language).1.locale = stored.locale := by
  rw [clearNickname_eq]

/-- Behind a default name stands the fixed fill only. -/
theorem eq_fixedFill_of_mem_trashOf_clearNickname :
    ∀ byte ∈ (stored.clearNickname names language).1.trashOf .nickname, byte = fixedFill := by
  obtain ⟨count, hcount⟩ : ∃ count, (stored.clearNickname names language).1.trashOf .nickname =
      List.replicate count fixedFill := by
    rw [clearNickname_eq]
    exact ⟨_, trash_encodeFresh rfl ..⟩
  intro byte hmem
  rw [hcount] at hmem
  exact List.eq_of_mem_replicate hmem

/-- A cleared nickname shows no zeros, whatever it showed before. -/
theorem not_showsZeros_clearNickname :
    ¬(stored.clearNickname names language).1.ShowsZeros .nickname := by
  have hne : (0 : UInt8) ≠ fixedFill := by decide
  intro hzero
  exact hne (eq_fixedFill_of_mem_trashOf_clearNickname stored names language 0 hzero)

end StoredNames

/-- Clearing a nickname in closed form. The nickname becomes the stored text of the default name,
written into a fresh buffer with the fixed fill; its mark goes, and nothing else changes. So
neither the old nickname nor its mark matters, the trash is all fill, the longest first part that
fits is shown, and clearing again changes nothing. The outcome is that of the default name itself,
with its decimal points. -/
theorem clearNickname_closed_form (stored : StoredNames) (names : SpeciesNames)
    (language : Language) :
    let length := stored.locale.layout.nicknameLength
    let name := names stored.species language stored.generation
    let text := storedText stored.locale stored.korean name
    let written := encodeFresh stored.locale .fixed length length text
    let cleared := stored.clearNickname names language
    (∃ nickname_length, cleared.1 =
      { stored with nickname := written.1, nickname_length, nicknamed := false }) ∧
    cleared.2 = (encodeFresh stored.locale .fixed length length name).2 ∧
    (∀ nickname nickname_length nicknamed,
      { stored with nickname, nickname_length, nicknamed }.clearNickname names language =
        cleared) ∧
    (∀ byte ∈ cleared.1.trashOf .nickname, byte = fixedFill) ∧
    cleared.1.name .nickname = (text.take written.2.chars).map stored.locale.fold ∧
    (∀ count ≤ text.length,
      count ≤ written.2.chars ↔ stored.locale.Fits length (text.take count)) ∧
    cleared.1.clearNickname names language = cleared := by
  intro length name text written cleared
  have hcleared := stored.clearNickname_eq names language
  have hrecord : cleared.1 = { stored with
      nickname := written.1
      nickname_length := stored.length_freshNickname text
      nicknamed := false } := congrArg Prod.fst hcleared
  have houtcome : cleared.2 = (encodeFresh stored.locale .fixed length length name).2 :=
    congrArg Prod.snd hcleared
  -- the closed form speaks only of fields that clearing does not touch
  have hindependent : ∀ nickname nickname_length nicknamed,
      { stored with nickname, nickname_length, nicknamed }.clearNickname names language =
        cleared := by
    intro nickname nickname_length nicknamed
    show _ = stored.clearNickname names language
    rw [StoredNames.clearNickname_eq, StoredNames.clearNickname_eq]
    rfl
  have htrash : ∀ byte ∈ cleared.1.trashOf .nickname, byte = fixedFill :=
    stored.eq_fixedFill_of_mem_trashOf_clearNickname names language
  have hshown : cleared.1.name .nickname =
      (text.take written.2.chars).map stored.locale.fold := by
    rw [hrecord]
    exact decode_encode ..
  have hlongest : ∀ count ≤ text.length,
      count ≤ written.2.chars ↔ stored.locale.Fits length (text.take count) :=
    fun _ hcount => le_chars_encodeFresh_iff stored.locale .fixed hcount
  refine ⟨⟨_, hrecord⟩, houtcome, hindependent, htrash, hshown, hlongest, ?_⟩
  rw [hrecord]
  exact hindependent written.1 (stored.length_freshNickname text) false

end SaveNames
