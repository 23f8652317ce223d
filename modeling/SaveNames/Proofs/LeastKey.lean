import Mathlib.Order.Bounds.Basic
import SaveNames.Proofs.Codes

/-!
# The least key of a character

Several slots of a set can hold one character, and a writer has to choose. **It chooses the least
key that a reader can reach** (`isLeast_keyOf?`). The single-byte sets can be reached at every key;
in the extended set a key is *reachable* if it is a byte that opens no two-byte character, or if its
high byte is a lead byte (`Charset.IsReachable`). The same key comes out of one pass over the slots
that enters every character at the first reachable key it is met at (`Charset.index_eq_keyOf?`).

What this means for a buffer: a character has a code if and only if some unit that a scan can yield
stands for it, the bytes of the code are scanned as such a unit, and none of the others has a
smaller value (`least_keys`).
-/

namespace SaveNames

/-! ## Reachable keys -/

namespace Charset

/-- A reader can come to look the key up: in the extended set, its high byte is zero and its low
byte is no lead byte, or its high byte is a lead byte. -/
def IsReachable : Charset → Nat → Prop
  | .extended, key =>
    key / 256 = 0 ∧ Locale.international.isLead (UInt8.ofNat (key % 256)) = false ∨
      Locale.international.isLead (UInt8.ofNat (key / 256)) = true
  | _, _ => True

instance (charset : Charset) (key : Nat) : Decidable (charset.IsReachable key) := by
  unfold IsReachable
  split <;> infer_instance

/-- The character stands in a slot that a reader can reach. -/
def Holds (charset : Charset) (ch : Char) (key : Nat) : Prop :=
  charset.IsReachable key ∧ charset.lookup key = .ok (some ch)

/-- No character stands where a reader cannot come. -/
theorem isReachable_of_lookup {charset : Charset} {key : Nat} {ch : Char}
    (h : charset.lookup key = .ok (some ch)) : charset.IsReachable key := by
  cases charset with
  | japanese => trivial
  | international => trivial
  | extended =>
    by_cases hkey : key < 256
    · have hbyte : (UInt8.ofNat key).toNat = key := UInt8.toNat_ofNat_of_lt' hkey
      rw [← hbyte] at h
      have hlead := (lookup_extended_byte.mp h).1
      refine .inl ⟨Nat.div_eq_of_lt hkey, ?_⟩
      rw [Nat.mod_eq_of_lt hkey]
      exact hlead
    · exact .inr (isLead_of_lookup_extended (by omega) h)

/-- A character of the set is held by the keys where it is looked up, and by no others. -/
theorem holds_iff {charset : Charset} {key : Nat} {ch : Char} :
    charset.Holds ch key ↔ charset.lookup key = .ok (some ch) :=
  ⟨And.right, fun h => ⟨isReachable_of_lookup h, h⟩⟩

/-- The key of a character is the least reachable key that holds it. -/
theorem isLeast_keyOf? {charset : Charset} {ch : Char} {key : Nat} :
    charset.keyOf? ch = some key ↔ IsLeast {key | charset.Holds ch key} key := by
  rw [keyOf?_eq_some_iff]
  constructor
  · intro h
    refine ⟨holds_iff.mpr h.1, ?_⟩
    intro other hother
    by_contra hlt
    exact h.2 other (by omega) (holds_iff.mp hother)
  · intro h
    refine ⟨holds_iff.mp h.1, ?_⟩
    intro smaller hlt hsmaller
    have hle := h.2 (holds_iff.mpr hsmaller)
    omega

/-- A character without a key is one that no key of the set holds. -/
theorem keyOf?_eq_none_iff {charset : Charset} {ch : Char} :
    charset.keyOf? ch = none ↔ ∀ key, ¬charset.Holds ch key := by
  constructor
  · intro h key hholds
    obtain ⟨least, -, hleast⟩ := exists_keyOf?_le (holds_iff.mp hholds)
    rw [h] at hleast
    cases hleast
  · intro h
    cases hkey : charset.keyOf? ch with
    | none => rfl
    | some key => exact absurd (isLeast_keyOf?.mp hkey).1 (h key)

/-! ## The index of a set -/

/-- Enters a slot into an index, if it is reachable. A character that is in the index keeps its
key. -/
def enter (charset : Charset) (index : Char → Option Nat) :
    Option Char × Nat → Char → Option Nat
  | (none, _), ch => index ch
  | (some entered, key), ch =>
    if ch = entered ∧ index entered = none ∧ charset.IsReachable key then some key else index ch

/-- The keys of all characters, from one pass over the slots in key order. -/
def index (charset : Charset) : Char → Option Nat :=
  charset.slots.zipIdx.foldl charset.enter fun _ => none

/-- The first slot that holds a character enters it, and no later one changes its key. -/
theorem foldl_enter {charset : Charset} {slots : List (Option Char)} {start : Nat}
    (hreach : ∀ ch key, (some ch, key) ∈ slots.zipIdx start → charset.IsReachable key)
    (index : Char → Option Nat) (ch : Char) :
    (slots.zipIdx start).foldl charset.enter index ch =
      (index ch).or ((slots.idxOf? (some ch)).map (start + ·)) := by
  induction slots generalizing start index with
  | nil => cases h : index ch <;> simp [h]
  | cons slot slots ih =>
    rw [List.zipIdx_cons] at hreach ⊢
    have hlater : ∀ ch key, (some ch, key) ∈ slots.zipIdx (start + 1) → charset.IsReachable key :=
      fun ch key hmem => hreach ch key (.tail _ hmem)
    have hrest := ih hlater
    rw [List.foldl_cons, hrest, List.idxOf?_cons]
    have hkeys : (slots.idxOf? (some ch)).map (start + 1 + ·) =
        ((slots.idxOf? (some ch)).map (· + 1)).map (start + ·) := by
      rw [Option.map_map]
      congr 1
      funext key
      show start + 1 + key = start + (key + 1)
      omega
    rw [hkeys]
    cases slot with
    | none => rfl
    | some entered =>
      have hstart : charset.IsReachable start := hreach entered start List.mem_cons_self
      -- the character gets its key here, unless it has one already
      by_cases hch : ch = entered
      · subst hch
        cases hindex : index ch with
        | none => simp [enter, hindex, hstart]
        | some key => simp [enter, hindex]
      · have hne : ¬(some entered == some ch) = true := by simpa using fun h => hch h.symm
        rw [if_neg hne]
        simp [enter, hch]

/-- Looking for the first slot of a character is looking it up in the index. -/
theorem index_eq_keyOf? (charset : Charset) (ch : Char) :
    charset.index ch = charset.keyOf? ch := by
  have hreach : ∀ ch key, (some ch, key) ∈ charset.slots.zipIdx → charset.IsReachable key := by
    intro ch key hmem
    exact isReachable_of_lookup (lookup_eq_ok_iff.mpr (List.mem_zipIdx_iff_getElem?.mp hmem))
  rw [index, foldl_enter hreach, Option.none_or, keyOf?]
  cases charset.slots.idxOf? (some ch) <;> simp

end Charset

/-! ## Units that a scan can yield -/

variable {locale : Locale} {unit : CodeUnit} {ch : Char}

/-- The unit occurs in the scan of some buffer. -/
def CodeUnit.IsScannable (locale : Locale) (unit : CodeUnit) : Prop :=
  ∃ data, unit ∈ scan locale data

/-- A scan can yield every single byte that is no lead byte, every lead byte with any byte behind
it, and a lead byte alone at the end. -/
theorem CodeUnit.isScannable_iff : unit.IsScannable locale ↔
    match unit with
    | .single byte => locale.isLead byte = false
    | .double lead _ => locale.isLead lead = true
    | .dangling lead => locale.isLead lead = true := by
  constructor
  · rintro ⟨data, hmem⟩
    have hunit := (isScan_scan locale data).isWhole_or_dangling hmem
    cases unit with
    | single byte => simpa [isWhole] using hunit
    | double lead trail => simpa [isWhole] using hunit
    | dangling lead =>
      obtain ⟨front, behind, hscan⟩ := List.mem_iff_append.mp hmem
      have hrest := isScan_scan locale data
      rw [hscan] at hrest
      cases hrest.of_append with
      | dangling hlead => exact hlead
      | cons hwhole => cases hwhole
  · intro h
    refine ⟨unit.bytes, ?_⟩
    cases unit with
    | single byte => simp [bytes, scan, show locale.isLead byte = false from h]
    | double lead trail => simp [bytes, scan, show locale.isLead lead = true from h]
    | dangling lead => simp [bytes, scan, show locale.isLead lead = true from h]

/-- A unit shows a character if it can be scanned and stands for the character. -/
theorem CodeUnit.shows_iff :
    unit.Shows locale ch ↔ unit.IsScannable locale ∧ unit.meaning locale = .ok (some ch) := by
  rw [Shows, char?_eq_some_iff, isScannable_iff]
  cases unit with
  | single byte => simp [isWhole]
  | double lead trail => simp [isWhole]
  | dangling lead => simp [isWhole, meaning]

/-- A writer finds what a unit shows at the value of the unit. -/
theorem lookup_value_of_shows (h : unit.Shows locale ch) :
    locale.writingCharset.lookup unit.value = .ok (some ch) := by
  cases unit with
  | single byte => exact lookup_writingCharset_of_shows_single h
  | double lead trail =>
    have hlocale := international_of_shows_double h
    subst hlocale
    exact (CodeUnit.shows_double_iff.mp h).2
  | dangling lead => exact absurd h CodeUnit.not_shows_dangling

theorem lt_of_lookup_writingCharset {key : Nat}
    (h : locale.writingCharset.lookup key = .ok (some ch)) : key < 65536 := by
  cases locale with
  | japanese =>
    have hlength := Charset.length_kana
    have hkey := (List.getElem?_eq_some_iff.mp (Charset.lookup_japanese.mp h)).1
    omega
  | international =>
    have hkey := Charset.lt_of_lookup_extended h
    omega

/-- The code at a key is the unit with the key as its value. -/
theorem value_unit_ofKey {key : Nat} (h : key < 65536) : (Code.ofKey key).unit.value = key := by
  by_cases hkey : key < 256
  · rw [Code.ofKey_of_lt hkey]
    exact UInt8.toNat_ofNat_of_lt' hkey
  · have hlead : (UInt8.ofNat (key / 256)).toNat = key / 256 :=
      UInt8.toNat_ofNat_of_lt' (show key / 256 < 256 by omega)
    have htrail : (UInt8.ofNat (key % 256)).toNat = key % 256 :=
      UInt8.toNat_ofNat_of_lt' (Nat.mod_lt key (by omega))
    rw [Code.ofKey_of_le (by omega), Code.unit, CodeUnit.value, hlead, htrail]
    exact Nat.div_add_mod key 256

/-! ## Codes -/

section Codes

variable (happ : Code.isApostrophe ch = false)
include happ

/-- A writer has a code for just the characters that some buffer can show. -/
theorem isSome_codeOf?_iff :
    (locale.codeOf? ch).isSome = true ↔ ∃ unit : CodeUnit, unit.Shows locale ch := by
  constructor
  · intro h
    obtain ⟨code, hcode⟩ := Option.isSome_iff_exists.mp h
    have hshows := shows_unit_of_codeOf? hcode
    rw [Locale.fold_of_not_isApostrophe happ] at hshows
    exact ⟨code.unit, hshows⟩
  · rintro ⟨unit, hunit⟩
    obtain ⟨code, hcode, -⟩ := exists_codeOf?_of_shows hunit
    exact Option.isSome_iff_exists.mpr ⟨code, hcode⟩

/-- Of all units that show a character, its code is the one with the least value. -/
theorem value_unit_le_of_shows {code : Code} (h : locale.codeOf? ch = some code)
    (hunit : unit.Shows locale ch) : code.unit.value ≤ unit.value := by
  rw [codeOf?_of_not_isApostrophe happ] at h
  obtain ⟨key, hkey, rfl⟩ := Option.map_eq_some_iff.mp h
  have hleast := Charset.isLeast_keyOf?.mp hkey
  rw [value_unit_ofKey (lt_of_lookup_writingCharset (Charset.holds_iff.mp hleast.1))]
  exact hleast.2 (Charset.holds_iff.mpr (lookup_value_of_shows hunit))

end Codes

/-- Looking characters up. In every set, the key of a character is the least reachable key that
holds it, and there is none if no reachable key does; one pass over the slots, in which the first
key of a character counts, finds the same. So, for all characters but the apostrophes, a writer has
a code if and only if some unit that a scan can yield stands for the character; the bytes of the
code are scanned as one such unit, whatever stands behind them; and no such unit has a smaller
value. -/
theorem least_keys (ch : Char) :
    (∀ charset : Charset,
      (∀ key, charset.keyOf? ch = some key ↔ IsLeast {key | charset.Holds ch key} key) ∧
      (charset.keyOf? ch = none ↔ ∀ key, ¬charset.Holds ch key) ∧
      charset.index ch = charset.keyOf? ch) ∧
    (ch ≠ '\'' ∧ ch ≠ '’' → ∀ locale : Locale,
      ((locale.codeOf? ch).isSome = true ↔
        ∃ unit : CodeUnit, unit.IsScannable locale ∧ unit.meaning locale = .ok (some ch)) ∧
      ∀ code, locale.codeOf? ch = some code → ∃ unit : CodeUnit,
        (∀ rest, scan locale (code.bytes ++ rest) = unit :: scan locale rest) ∧
        unit.meaning locale = .ok (some ch) ∧
        ∀ other : CodeUnit, other.IsScannable locale → other.meaning locale = .ok (some ch) →
          unit.value ≤ other.value) := by
  refine ⟨fun charset => ⟨fun key => Charset.isLeast_keyOf?, Charset.keyOf?_eq_none_iff,
    Charset.index_eq_keyOf? charset ch⟩, ?_⟩
  intro hch locale
  have happ : Code.isApostrophe ch = false := by simp [Code.isApostrophe, hch]
  simp only [← CodeUnit.shows_iff]
  refine ⟨isSome_codeOf?_iff happ, fun code hcode => ⟨code.unit, ?_, ?_, ?_⟩⟩
  · intro rest
    rw [← Code.bytes_unit]
    exact scan_bytes_append (shows_unit_of_codeOf? hcode).1 rest
  · have hshows := shows_unit_of_codeOf? hcode
    rw [Locale.fold_of_not_isApostrophe happ] at hshows
    exact CodeUnit.char?_eq_some_iff.mp hshows.2
  · intro other hscan hmeaning
    exact value_unit_le_of_shows happ hcode (CodeUnit.shows_iff.mpr ⟨hscan, hmeaning⟩)

end SaveNames
