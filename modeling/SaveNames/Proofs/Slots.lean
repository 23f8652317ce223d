import SaveNames.Charset

/-!
# Where characters stand in the sets

A set is glued together from rows and pages, and lookup works on the flat list of slots that
comes out. This file says which page a key reaches, and what the flat list therefore holds:

* `getElem?_extendedSlots`: key `256 · lead + trail` of the extended set is slot `trail` on the
  page of `lead`.
* `lookup_extended_byte`: on its first page the extended set is the international set without
  the lead bytes.
* `isLead_of_lookup_extended`: behind the first page, only the pages of lead bytes hold
  characters.
* `keyOf?_eq_some_iff`: the key of a character is the least key that holds it.
-/

namespace SaveNames
namespace Charset

/-! ## How far the sets reach -/

theorem length_kana : kana.length = 247 := by rfl

theorem length_western : western.length = 247 := by rfl

/-- Every two-byte page leaves the last nine bytes vacant. -/
theorem length_hanziPage_le : ∀ lead < 31, (hanziPage lead).length ≤ 247 := by decide +kernel

/-- A lead byte is neither zero nor greater than the last page. -/
theorem toNat_lt_of_isLead {locale : Locale} {byte : UInt8} (h : locale.isLead byte = true) :
    0 < byte.toNat ∧ byte.toNat < 31 := by
  cases locale with
  | japanese => simp [Locale.isLead] at h
  | international =>
    simp only [Locale.isLead, Bool.and_eq_true, decide_eq_true_eq, UInt8.le_iff_toNat_le] at h
    obtain ⟨⟨⟨hlow, hhigh⟩, -⟩, -⟩ := h
    have hone : (0x01 : UInt8).toNat = 1 := rfl
    have hlast : (0x1E : UInt8).toNat = 30 := rfl
    omega

/-! ## Pages -/

/-- The vacant slots behind the given ones hold no character. -/
theorem getElem?_page_eq_some_iff {slots : List (Option Char)} {key : Nat} {ch : Char} :
    (page slots)[key]? = some (some ch) ↔ slots[key]? = some (some ch) := by
  rw [page, vacant, List.getElem?_append]
  by_cases h : key < slots.length
  · rw [if_pos h]
  · have hnone : slots[key]? = none := List.getElem?_eq_none (by omega)
    rw [if_neg h, List.getElem?_replicate, hnone]
    split <;> simp

/-- A page of characters holds them where they are listed, and nothing else. -/
theorem getElem?_page_map_eq_some_iff {chars : List Char} {key : Nat} {ch : Char} :
    (page (chars.map some))[key]? = some (some ch) ↔ chars[key]? = some ch := by
  rw [getElem?_page_eq_some_iff, List.getElem?_map]
  cases chars[key]? <;> simp

theorem length_page {slots : List (Option Char)} (h : slots.length ≤ 256) :
    (page slots).length = 256 := by
  rw [page, vacant, List.length_append, List.length_replicate]
  omega

theorem extendedPage_of_pos {lead : Nat} (h : 0 < lead) :
    extendedPage lead = page (hanziPage lead) := by
  cases lead with
  | zero => omega
  | succ lead => rfl

theorem length_extendedPage {lead : Nat} (h : lead < 31) : (extendedPage lead).length = 256 := by
  rcases Nat.eq_zero_or_pos lead with hzero | hpos
  · rw [hzero, extendedPage, List.length_map, List.length_range]
  · rw [extendedPage_of_pos hpos]
    have hslots := length_hanziPage_le lead h
    exact length_page (by omega)

/-! ## Pages of one size in a row -/

/-- Pages of one size in a row are as long as the size for each of them. -/
theorem length_flatMap_range {α : Type} (pages : Nat → List α) {size count : Nat}
    (hsize : ∀ i < count, (pages i).length = size) :
    ((List.range count).flatMap pages).length = size * count := by
  induction count with
  | zero => rfl
  | succ count ih =>
    have hrest := ih fun i hi => hsize i (by omega)
    rw [List.range_succ, List.flatMap_append, List.length_append, List.flatMap_singleton, hrest,
      hsize count (by omega), Nat.mul_succ]

/-- Entry `size · i + j` of the row is entry `j` of page `i`. -/
theorem getElem?_flatMap_range {α : Type} (pages : Nat → List α) {size count : Nat}
    (hsize : ∀ i < count, (pages i).length = size) {i j : Nat} (hi : i < count) (hj : j < size) :
    ((List.range count).flatMap pages)[size * i + j]? = (pages i)[j]? := by
  induction count with
  | zero => omega
  | succ count ih =>
    have hsize' : ∀ i < count, (pages i).length = size := fun i hi => hsize i (by omega)
    rw [List.range_succ, List.flatMap_append, List.flatMap_singleton, List.getElem?_append,
      length_flatMap_range pages hsize']
    -- the entry lies on one of the first pages, or on the last one
    by_cases h : i < count
    · have hlt : size * i + j < size * count := by
        calc size * i + j < size * i + size := by omega
          _ = size * (i + 1) := (Nat.mul_succ size i).symm
          _ ≤ size * count := Nat.mul_le_mul_left size h
      rw [if_pos hlt]
      exact ih hsize' h
    · have heq : i = count := by omega
      subst heq
      rw [if_neg (by omega), Nat.add_sub_cancel_left]

theorem length_extendedSlots : extendedSlots.length = 7936 :=
  length_flatMap_range extendedPage fun _ h => length_extendedPage h

/-- The slot of a two-byte key is that of the second byte on the page of the first. -/
theorem getElem?_extendedSlots {lead trail : Nat} (hlead : lead < 31) (htrail : trail < 256) :
    extendedSlots[256 * lead + trail]? = (extendedPage lead)[trail]? :=
  getElem?_flatMap_range extendedPage (fun _ h => length_extendedPage h) hlead htrail

/-! ## What lookup finds -/

/-- A lookup succeeds with the slot that stands at the key. -/
theorem lookup_eq_ok_iff {charset : Charset} {key : Nat} {slot : Option Char} :
    charset.lookup key = .ok slot ↔ charset.slots[key]? = some slot := by
  rw [lookup]
  split
  · next found h => rw [h, Except.ok.injEq, Option.some.injEq]
  · next h => simp [h]

/-- The international set shows a character at the place where it is listed. -/
theorem lookup_international {key : Nat} {ch : Char} :
    international.lookup key = .ok (some ch) ↔ western[key]? = some ch := by
  rw [lookup_eq_ok_iff]
  exact getElem?_page_map_eq_some_iff

theorem lookup_japanese {key : Nat} {ch : Char} :
    japanese.lookup key = .ok (some ch) ↔ kana[key]? = some ch := by
  rw [lookup_eq_ok_iff]
  exact getElem?_page_map_eq_some_iff

/-- The extended set offers a single byte exactly where a reader takes the byte for a character
of its own, and then both sets agree on the character. -/
theorem lookup_extended_byte {byte : UInt8} {ch : Char} :
    extended.lookup byte.toNat = .ok (some ch) ↔
      Locale.international.isLead byte = false ∧
        international.lookup byte.toNat = .ok (some ch) := by
  have hbyte : byte.toNat < 256 := byte.toNat_lt
  have hslot : extendedSlots[byte.toNat]? = some (singleSlot byte.toNat) := by
    have h : extendedSlots[256 * 0 + byte.toNat]? = (extendedPage 0)[byte.toNat]? :=
      getElem?_extendedSlots (by omega) hbyte
    rw [Nat.mul_zero, Nat.zero_add] at h
    rw [h, extendedPage, List.getElem?_map, List.getElem?_range hbyte, Option.map_some]
  rw [lookup_eq_ok_iff, lookup_international]
  show extendedSlots[byte.toNat]? = _ ↔ _
  rw [hslot, Option.some.injEq, singleSlot, UInt8.ofNat_toNat]
  cases Locale.international.isLead byte <;> simp

/-- No lookup succeeds behind the last page of the extended set. -/
theorem lt_of_lookup_extended {key : Nat} {slot : Option Char}
    (h : extended.lookup key = .ok slot) : key < 7936 := by
  rw [lookup_eq_ok_iff] at h
  have hlt : key < extendedSlots.length := (List.getElem?_eq_some_iff.mp h).1
  rwa [length_extendedSlots] at hlt

/-- Every page behind the first is that of a lead byte, or it is empty. -/
theorem isLead_or_hanziPage_eq_nil : ∀ lead < 31, 0 < lead →
    Locale.international.isLead (UInt8.ofNat lead) = true ∨ hanziPage lead = [] := by
  decide +kernel

/-- A character behind the first page stands on the page of the high byte of its key. -/
theorem getElem?_hanziPage_of_lookup_extended {key : Nat} {ch : Char} (hkey : 256 ≤ key)
    (h : extended.lookup key = .ok (some ch)) :
    key / 256 < 31 ∧ (hanziPage (key / 256))[key % 256]? = some (some ch) := by
  have hlt := lt_of_lookup_extended h
  have hlead : key / 256 < 31 := by omega
  rw [lookup_eq_ok_iff] at h
  change extendedSlots[key]? = _ at h
  rw [← Nat.div_add_mod key 256, getElem?_extendedSlots hlead (Nat.mod_lt _ (by omega)),
    extendedPage_of_pos (by omega), getElem?_page_eq_some_iff] at h
  exact ⟨hlead, h⟩

/-- Only lead bytes open pages that hold a character. -/
theorem isLead_of_lookup_extended {key : Nat} {ch : Char} (hkey : 256 ≤ key)
    (h : extended.lookup key = .ok (some ch)) :
    Locale.international.isLead (UInt8.ofNat (key / 256)) = true := by
  obtain ⟨hlead, hslot⟩ := getElem?_hanziPage_of_lookup_extended hkey h
  rcases isLead_or_hanziPage_eq_nil (key / 256) hlead (by omega) with hl | hnil
  · exact hl
  · rw [hnil] at hslot
    simp at hslot

/-! ## Apostrophes and the decimal point -/

/-- The two-byte pages have punctuation of their own, but no ASCII character and not `・`. -/
theorem toNat_of_mem_hanziPage {lead : Nat} {ch : Char} (hlead : lead < 31)
    (h : some ch ∈ hanziPage lead) : 0x2000 < ch.toNat ∧ ch.toNat ≠ '・'.toNat := by
  have hslots : ∀ lead < 31, ∀ slot ∈ hanziPage lead,
      slot.all (fun ch => 0x2000 < ch.toNat ∧ ch.toNat ≠ '・'.toNat) = true := by decide +kernel
  exact of_decide_eq_true (hslots lead hlead (some ch) h)

/-- No set has a slot for the straight apostrophe. -/
theorem lookup_ne_straight (charset : Charset) (key : Nat) :
    charset.lookup key ≠ .ok (some '\'') := by
  have hkana : '\'' ∉ kana := by decide +kernel
  have hwestern : '\'' ∉ western := by decide +kernel
  intro h
  cases charset with
  | japanese => exact hkana (List.mem_of_getElem? (lookup_japanese.mp h))
  | international => exact hwestern (List.mem_of_getElem? (lookup_international.mp h))
  | extended =>
    -- the first page is the international set again, the others are the two-byte pages
    by_cases hkey : key < 256
    · have hbyte : (UInt8.ofNat key).toNat = key := UInt8.toNat_ofNat_of_lt' hkey
      rw [← hbyte] at h
      have hsingle := (lookup_extended_byte.mp h).2
      exact hwestern (List.mem_of_getElem? (lookup_international.mp hsingle))
    · obtain ⟨hlead, hslot⟩ := getElem?_hanziPage_of_lookup_extended (by omega) h
      have hpunctuation := toNat_of_mem_hanziPage hlead (List.mem_of_getElem? hslot)
      exact absurd hpunctuation.1 (by decide)

/-- The Japanese set has no slot for the typographic apostrophe either. -/
theorem lookup_japanese_ne_typographic (key : Nat) : japanese.lookup key ≠ .ok (some '’') := by
  have hkana : '’' ∉ kana := by decide +kernel
  intro h
  exact hkana (List.mem_of_getElem? (lookup_japanese.mp h))

/-- The international set has the decimal point in one slot only. -/
theorem eq_of_lookup_international_point {key : Nat}
    (h : international.lookup key = .ok (some '・')) : key = 0xAF := by
  have hslots : ∀ key < western.length, western[key]? = some '・' → key = 0xAF := by
    decide +kernel
  have hslot := lookup_international.mp h
  exact hslots key (List.getElem?_eq_some_iff.mp hslot).1 hslot

/-- The decimal point does not stand on the two-byte pages. -/
theorem lookup_extended_ne_point {key : Nat} (hkey : 256 ≤ key) :
    extended.lookup key ≠ .ok (some '・') := by
  intro h
  obtain ⟨hlead, hslot⟩ := getElem?_hanziPage_of_lookup_extended hkey h
  exact (toNat_of_mem_hanziPage hlead (List.mem_of_getElem? hslot)).2 rfl

/-! ## The key of a character -/

/-- The key of a character is the least key whose slot holds it. -/
theorem keyOf?_eq_some_iff {charset : Charset} {ch : Char} {key : Nat} :
    charset.keyOf? ch = some key ↔
      charset.lookup key = .ok (some ch) ∧
        ∀ smaller < key, charset.lookup smaller ≠ .ok (some ch) := by
  rw [keyOf?, List.idxOf?_eq_some_iff]
  simp only [ne_eq, lookup_eq_ok_iff, List.getElem?_eq_some_iff]
  constructor
  · rintro ⟨h, hkey, hleast⟩
    exact ⟨⟨h, hkey⟩, fun smaller hlt ⟨_, heq⟩ => hleast smaller hlt heq⟩
  · rintro ⟨⟨h, hkey⟩, hleast⟩
    exact ⟨h, hkey, fun smaller hlt heq => hleast smaller hlt ⟨by omega, heq⟩⟩

/-- A character that some slot holds has a key, and no greater one. -/
theorem exists_keyOf?_le {charset : Charset} {ch : Char} {key : Nat}
    (h : charset.lookup key = .ok (some ch)) :
    ∃ least ≤ key, charset.keyOf? ch = some least := by
  have hmem : some ch ∈ charset.slots := List.mem_of_getElem? (lookup_eq_ok_iff.mp h)
  have hsome : (charset.keyOf? ch).isSome = true := List.isSome_idxOf?.mpr hmem
  obtain ⟨least, hleast⟩ := Option.isSome_iff_exists.mp hsome
  refine ⟨least, Nat.le_of_not_lt ?_, hleast⟩
  intro hgt
  exact (keyOf?_eq_some_iff.mp hleast).2 key hgt h

end Charset
end SaveNames
