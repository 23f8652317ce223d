import SaveNames.Code
import SaveNames.Proofs.Slots
import SaveNames.Proofs.Units

/-!
# Characters, codes and units

A writer looks characters up in one set and a reader looks single bytes up in another. Both
agree all the same, and the statements here are all that the rest of the theory needs to know
about the sets:

* `shows_unit_of_codeOf?`: where a code was written, a reader sees the character it was written
  for, an apostrophe in the form that the locale has.
* `exists_codeOf?_of_shows`: a writer has a code for every character that a reader can see, and
  the code is no wider than what was read.
* `codeOf?_fold`: both forms of the apostrophe have the code of the form that is read back.
-/

namespace SaveNames

/-! ## Codes as units -/

/-- The unit that a reader finds where a code was written. -/
def Code.unit : Code → CodeUnit
  | .single byte => .single byte
  | .double lead trail => .double lead trail

@[simp] theorem Code.bytes_unit (code : Code) : code.unit.bytes = code.bytes := by
  cases code <;> rfl

@[simp] theorem Code.width_unit (code : Code) : code.unit.width = code.width := by
  rw [CodeUnit.width, Code.bytes_unit]
  rfl

theorem Code.ofKey_of_lt {key : Nat} (h : key < 256) : ofKey key = .single (UInt8.ofNat key) :=
  if_pos h

theorem Code.ofKey_of_le {key : Nat} (h : 256 ≤ key) :
    ofKey key = .double (UInt8.ofNat (key / 256)) (UInt8.ofNat (key % 256)) :=
  if_neg (by omega)

theorem Code.width_le_two (code : Code) : code.width ≤ 2 := by
  cases code <;> simp [width, bytes]

/-! ## What a unit shows -/

variable {locale : Locale} {unit : CodeUnit} {ch : Char}

/-- A scan can yield the unit, and a reader sees the character in it. -/
def CodeUnit.Shows (locale : Locale) (unit : CodeUnit) (ch : Char) : Prop :=
  unit.isWhole locale = true ∧ unit.char? locale = some ch

theorem CodeUnit.char?_eq_some_iff :
    unit.char? locale = some ch ↔ unit.meaning locale = .ok (some ch) := by
  rw [char?]
  split
  · next slot h => rw [h, Except.ok.injEq]
  · next h => simp [h]

/-- A single byte shows a character if it is no lead byte and the set of the locale has the
character there. -/
theorem CodeUnit.shows_single_iff {byte : UInt8} :
    (CodeUnit.single byte).Shows locale ch ↔
      locale.isLead byte = false ∧ locale.singleCharset.lookup byte.toNat = .ok (some ch) := by
  rw [Shows, char?_eq_some_iff, isWhole, Bool.not_eq_true']
  rfl

/-- Two bytes show a character if the first is a lead byte and the extended set has the character
there. -/
theorem CodeUnit.shows_double_iff {lead trail : UInt8} :
    (CodeUnit.double lead trail).Shows locale ch ↔
      locale.isLead lead = true ∧
        Charset.extended.lookup (256 * lead.toNat + trail.toNat) = .ok (some ch) := by
  rw [Shows, char?_eq_some_iff]
  rfl

theorem CodeUnit.not_shows_dangling {lead : UInt8} : ¬(CodeUnit.dangling lead).Shows locale ch := by
  rintro ⟨h, -⟩
  simp [isWhole] at h

/-! ## Apostrophes -/

/-- The character that is read back where the character was written: an apostrophe of either
form turns into the one that the locale's set has at the apostrophe byte. -/
def Locale.fold (locale : Locale) (ch : Char) : Char :=
  if Code.isApostrophe ch then ((CodeUnit.single Code.apostropheByte).char? locale).getD ch
  else ch

theorem Code.isApostrophe_iff : isApostrophe ch = true ↔ ch = '\'' ∨ ch = '’' := by
  simp [isApostrophe]

theorem Locale.fold_of_not_isApostrophe (h : Code.isApostrophe ch = false) :
    locale.fold ch = ch := by
  rw [fold, h]
  rfl

/-- Both apostrophes are folded to what the apostrophe byte stands for in the locale. -/
theorem Locale.fold_of_isApostrophe (h : Code.isApostrophe ch = true) :
    locale.fold ch = (match locale with | .japanese => '」' | .international => '’') := by
  have hjapanese : (CodeUnit.single Code.apostropheByte).char? .japanese = some '」' := by
    rfl
  have hinternational : (CodeUnit.single Code.apostropheByte).char? .international = some '’' := by
    rfl
  rw [fold, if_pos h]
  cases locale with
  | japanese => rw [hjapanese]; rfl
  | international => rw [hinternational]; rfl

/-- The straight apostrophe is changed in every locale, the typographic one only where it is not
the locale's own. -/
theorem Locale.fold_ne_self_iff :
    locale.fold ch ≠ ch ↔ ch = '\'' ∨ locale = .japanese ∧ ch = '’' := by
  cases happ : Code.isApostrophe ch with
  | false =>
    have hnot := mt Code.isApostrophe_iff.mpr (by rw [happ]; decide)
    rw [fold_of_not_isApostrophe happ]
    exact ⟨fun h => absurd rfl h, fun h => absurd (h.imp id (·.2)) hnot⟩
  | true =>
    rw [fold_of_isApostrophe happ]
    rcases Code.isApostrophe_iff.mp happ with rfl | rfl <;> cases locale <;> decide

/-- The apostrophe byte shows what an apostrophe is folded to. -/
theorem shows_apostropheByte (h : Code.isApostrophe ch = true) :
    (CodeUnit.single Code.apostropheByte).Shows locale (locale.fold ch) := by
  rw [Locale.fold_of_isApostrophe h]
  constructor
  · cases locale <;> decide
  · cases locale <;> rfl

/-- Both apostrophes have the apostrophe byte as their code. -/
theorem codeOf?_of_isApostrophe (h : Code.isApostrophe ch = true) :
    locale.codeOf? ch = some (.single Code.apostropheByte) := if_pos h

/-- Any other character has the code of its key, if it has a key. -/
theorem codeOf?_of_not_isApostrophe (h : Code.isApostrophe ch = false) :
    locale.codeOf? ch = (locale.writingCharset.keyOf? ch).map Code.ofKey :=
  if_neg (by simp [h])

/-- Both forms of the apostrophe are written like the form that is read back. -/
theorem codeOf?_fold (locale : Locale) (ch : Char) :
    locale.codeOf? (locale.fold ch) = locale.codeOf? ch := by
  cases h : Code.isApostrophe ch with
  | false => rw [Locale.fold_of_not_isApostrophe h]
  | true =>
    rw [Locale.fold_of_isApostrophe h, codeOf?_of_isApostrophe h]
    cases locale <;> decide +kernel

/-! ## Writing, then reading -/

/-- The code at a key of the Japanese set shows the character in its slot. -/
theorem shows_ofKey_japanese {key : Nat} (h : Charset.japanese.lookup key = .ok (some ch)) :
    (Code.ofKey key).unit.Shows .japanese ch := by
  have hlength := Charset.length_kana
  have hkey : key < 256 := by
    have hlt := (List.getElem?_eq_some_iff.mp (Charset.lookup_japanese.mp h)).1
    omega
  rw [Code.ofKey_of_lt hkey, Code.unit, CodeUnit.shows_single_iff, UInt8.toNat_ofNat_of_lt' hkey]
  exact ⟨rfl, h⟩

/-- The code at a key of the extended set shows the character in its slot. -/
theorem shows_ofKey_international {key : Nat} (h : Charset.extended.lookup key = .ok (some ch)) :
    (Code.ofKey key).unit.Shows .international ch := by
  by_cases hkey : key < 256
  · have hbyte : (UInt8.ofNat key).toNat = key := UInt8.toNat_ofNat_of_lt' hkey
    rw [Code.ofKey_of_lt hkey, Code.unit, CodeUnit.shows_single_iff]
    rw [← hbyte] at h
    exact Charset.lookup_extended_byte.mp h
  · have hle : 256 ≤ key := by omega
    have hlt := Charset.lt_of_lookup_extended h
    have hlead : (UInt8.ofNat (key / 256)).toNat = key / 256 :=
      UInt8.toNat_ofNat_of_lt' (show key / 256 < 256 by omega)
    have htrail : (UInt8.ofNat (key % 256)).toNat = key % 256 :=
      UInt8.toNat_ofNat_of_lt' (Nat.mod_lt key (by omega))
    rw [Code.ofKey_of_le hle, Code.unit, CodeUnit.shows_double_iff, hlead, htrail,
      Nat.div_add_mod]
    exact ⟨Charset.isLead_of_lookup_extended hle h, h⟩

/-- Where the code of a character was written, a reader sees the character, or the locale's
apostrophe for an apostrophe. -/
theorem shows_unit_of_codeOf? {code : Code} (h : locale.codeOf? ch = some code) :
    code.unit.Shows locale (locale.fold ch) := by
  cases happ : Code.isApostrophe ch with
  | true =>
    rw [codeOf?_of_isApostrophe happ, Option.some.injEq] at h
    rw [← h]
    exact shows_apostropheByte happ
  | false =>
    rw [codeOf?_of_not_isApostrophe happ] at h
    obtain ⟨key, hkey, hcode⟩ := Option.map_eq_some_iff.mp h
    have hlookup := (Charset.keyOf?_eq_some_iff.mp hkey).1
    rw [Locale.fold_of_not_isApostrophe happ, ← hcode]
    cases locale with
    | japanese => exact shows_ofKey_japanese hlookup
    | international => exact shows_ofKey_international hlookup

/-! ## Bytes that no character needs -/

/-- The last slots of every page are vacant, so no unit that shows a character has such a byte in
any of its positions. -/
theorem toNat_lt_of_mem_bytes_of_shows {byte : UInt8} (h : unit.Shows locale ch)
    (hmem : byte ∈ unit.bytes) : byte.toNat < 247 := by
  cases unit with
  | single byte' =>
    obtain rfl : byte = byte' := List.mem_singleton.mp hmem
    have hlookup := (CodeUnit.shows_single_iff.mp h).2
    have hkana := Charset.length_kana
    have hwestern := Charset.length_western
    cases locale with
    | japanese =>
      have hlt := (List.getElem?_eq_some_iff.mp (Charset.lookup_japanese.mp hlookup)).1
      omega
    | international =>
      have hlt := (List.getElem?_eq_some_iff.mp (Charset.lookup_international.mp hlookup)).1
      omega
  | double lead trail =>
    obtain ⟨hlead, hlookup⟩ := CodeUnit.shows_double_iff.mp h
    have hlt := Charset.toNat_lt_of_isLead hlead
    have htrail := trail.toNat_lt
    have hmem' : byte = lead ∨ byte = trail := by simpa [CodeUnit.bytes] using hmem
    rcases hmem' with rfl | rfl
    · omega
    · obtain ⟨hpage, hslot⟩ := Charset.getElem?_hanziPage_of_lookup_extended (by omega) hlookup
      have hlength := Charset.length_hanziPage_le _ hpage
      have hslot' := (List.getElem?_eq_some_iff.mp hslot).1
      omega
  | dangling lead => exact absurd h CodeUnit.not_shows_dangling

/-- No code has a terminator in it, not even behind its lead byte. -/
theorem terminator_notMem_bytes {code : Code} (h : locale.codeOf? ch = some code) :
    terminator ∉ code.bytes := by
  intro hmem
  rw [← Code.bytes_unit] at hmem
  have hlt := toNat_lt_of_mem_bytes_of_shows (shows_unit_of_codeOf? h) hmem
  have hterminator : terminator.toNat = 255 := rfl
  omega

/-! ## Reading, then writing -/

/-- The key at which the writer's set holds what a single byte shows is the byte itself. -/
theorem lookup_writingCharset_of_shows_single {byte : UInt8}
    (h : (CodeUnit.single byte).Shows locale ch) :
    locale.writingCharset.lookup byte.toNat = .ok (some ch) := by
  obtain ⟨hlead, hlookup⟩ := CodeUnit.shows_single_iff.mp h
  cases locale with
  | japanese => exact hlookup
  | international => exact Charset.lookup_extended_byte.mpr ⟨hlead, hlookup⟩

/-- Only the international set has two-byte characters. -/
theorem international_of_shows_double {lead trail : UInt8}
    (h : (CodeUnit.double lead trail).Shows locale ch) : locale = .international := by
  obtain ⟨hlead, -⟩ := CodeUnit.shows_double_iff.mp h
  cases locale with
  | japanese => simp [Locale.isLead] at hlead
  | international => rfl

/-- What a reader can see, a writer can write, and in no more bytes. -/
theorem exists_codeOf?_of_shows (h : unit.Shows locale ch) :
    ∃ code, locale.codeOf? ch = some code ∧ code.width ≤ unit.width := by
  cases happ : Code.isApostrophe ch with
  | true => exact ⟨_, codeOf?_of_isApostrophe happ, unit.width_pos⟩
  | false =>
    -- the key found is no greater than the one read, so it stays on the first page if that was
    rw [codeOf?_of_not_isApostrophe happ]
    cases unit with
    | single byte =>
      obtain ⟨key, hle, hkey⟩ :=
        Charset.exists_keyOf?_le (lookup_writingCharset_of_shows_single h)
      have hbyte : key < 256 := Nat.lt_of_le_of_lt hle byte.toNat_lt
      refine ⟨Code.ofKey key, by rw [hkey]; rfl, ?_⟩
      rw [Code.ofKey_of_lt hbyte]
      exact Nat.le_refl 1
    | double lead trail =>
      have hlocale := international_of_shows_double h
      subst hlocale
      obtain ⟨key, -, hkey⟩ := Charset.exists_keyOf?_le (CodeUnit.shows_double_iff.mp h).2
      exact ⟨Code.ofKey key, congrArg (Option.map Code.ofKey) hkey, (Code.ofKey key).width_le_two⟩
    | dangling lead => exact absurd h CodeUnit.not_shows_dangling

/-- A reader never sees an apostrophe that is not the locale's own. -/
theorem fold_of_shows (h : unit.Shows locale ch) : locale.fold ch = ch := by
  cases happ : Code.isApostrophe ch with
  | false => exact Locale.fold_of_not_isApostrophe happ
  | true =>
    obtain ⟨charset, key, hlookup, hcharset⟩ :
        ∃ charset key, Charset.lookup charset key = .ok (some ch) ∧
          (locale = .japanese → charset = .japanese) := by
      cases unit with
      | single byte =>
        refine ⟨_, _, (CodeUnit.shows_single_iff.mp h).2, ?_⟩
        rintro rfl
        rfl
      | double lead trail =>
        refine ⟨_, _, (CodeUnit.shows_double_iff.mp h).2, ?_⟩
        rw [international_of_shows_double h]
        simp
      | dangling lead => exact absurd h CodeUnit.not_shows_dangling
    -- no slot holds the straight form, and the typographic one is the international set's own
    rcases Code.isApostrophe_iff.mp happ with rfl | rfl
    · exact absurd hlookup (Charset.lookup_ne_straight charset key)
    · cases locale with
      | japanese =>
        rw [hcharset rfl] at hlookup
        exact absurd hlookup (Charset.lookup_japanese_ne_typographic key)
      | international => exact Locale.fold_of_isApostrophe happ

end SaveNames
