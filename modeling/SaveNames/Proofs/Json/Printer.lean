import SaveNames.Json.Printer
import SaveNames.Proofs.Json.Parser

/-!
# Printed texts are texts of the grammar

In every layout that puts blanks between tokens and nothing else (`Style.IsBlank`), **the printer
spells a value by the rules of the grammar** (`isValue_render`), so the parser gives the value back
(`parse?_print`). A number is printed as it is spelled, so it has to be spelled as one
(`IsWellSpelled`).
-/

namespace SaveNames
namespace Json

/-! ## Layouts -/

/-- The layout puts nothing but blanks between tokens. -/
structure Style.IsBlank (style : Style) : Prop where
  newline : ∀ level, IsGap (style.newline level)
  colon : ∃ front behind, IsGap front ∧ IsGap behind ∧ style.colon = front ++ ':' :: behind

theorem isGap_nil : IsGap [] := by simp [IsGap]

theorem Style.isBlank_compact : Style.compact.IsBlank :=
  ⟨fun _ => isGap_nil, [], [], isGap_nil, isGap_nil, rfl⟩

theorem Style.isBlank_indented : Style.indented.IsBlank := by
  refine ⟨fun level => ?_, [], [' '], isGap_nil, by simp [IsGap], rfl⟩
  intro ch hmem
  rcases List.mem_cons.mp hmem with rfl | hspace
  · exact .inr (.inr (.inl rfl))
  · exact .inl (List.eq_of_mem_replicate hspace)

/-! ## Strings -/

/-- A character with an escape of one letter is printed as that, but a slash is printed plainly. -/
theorem escape_of_mem {letter ch : Char} (h : (letter, ch) ∈ letterEscapes) :
    escape ch = ['\\', letter] ∨ ch = '/' := by
  have hletters : ∀ pair ∈ letterEscapes, escape pair.2 = ['\\', pair.1] ∨ pair.2 = '/' := by decide
  exact hletters _ h

/-- A character without a letter of its own is escaped with digits if it is a control character, and
else printed as it is. -/
theorem escape_of_not_mem {ch : Char} (h : ch ∉ letterEscapes.map Prod.snd) :
    escape ch =
      if ch.toNat < 0x20 then
        ['\\', 'u', '0', '0', HexDigit.lower (ch.toNat / 16), HexDigit.lower (ch.toNat % 16)]
      else [ch] := by
  simp only [letterEscapes, List.map_cons, List.map_nil, List.mem_cons, not_or] at h
  obtain ⟨hquote, hbackslash, -, hb, hf, hn, hr, ht, -⟩ := h
  rw [escape, if_neg hquote, if_neg hbackslash, if_neg hb, if_neg hf, if_neg hn, if_neg hr,
    if_neg ht]

/-- Two hex digits spell a control character. -/
theorem Spells.control_append {rest : Text} {points : List Nat} (h : Spells rest points) {ch : Char}
    (hcontrol : ch.toNat < 0x20) :
    Spells (['\\', 'u', '0', '0', HexDigit.lower (ch.toNat / 16), HexDigit.lower (ch.toNat % 16)] ++
      rest) (ch.toNat :: points) := by
  have hzero : Hex.IsDigit 0 '0' := by decide
  have hhigh : Hex.IsDigit (ch.toNat / 16) (HexDigit.lower (ch.toNat / 16)) := ⟨by omega, .inr rfl⟩
  have hlow : Hex.IsDigit (ch.toNat % 16) (HexDigit.lower (ch.toNat % 16)) := ⟨by omega, .inr rfl⟩
  have hpoint : 0x1000 * 0 + 0x100 * 0 + 0x10 * (ch.toNat / 16) + ch.toNat % 16 = ch.toNat := by
    omega
  have hspells := Spells.digits hzero hzero hhigh hlow h
  rw [hpoint] at hspells
  exact hspells

/-- Whatever stands behind it, an escaped character spells the character. -/
theorem Spells.escape_append {rest : Text} {points : List Nat} (h : Spells rest points)
    (ch : Char) : Spells (escape ch ++ rest) (ch.toNat :: points) := by
  by_cases hmem : ch ∈ letterEscapes.map Prod.snd
  · obtain ⟨⟨letter, ch⟩, hletter, rfl⟩ := List.mem_map.mp hmem
    rcases escape_of_mem hletter with hescape | hslash
    · rw [hescape]
      exact .letter hletter h
    · rw [show (letter, ch).2 = '/' from hslash]
      exact .plain (by decide) (by decide) (by decide) h
  · rw [escape_of_not_mem hmem]
    split
    · next hcontrol => exact h.control_append hcontrol
    · next hcontrol =>
      have hquote : ch ≠ '"' := fun heq => hmem (heq ▸ by decide)
      have hbackslash : ch ≠ '\\' := fun heq => hmem (heq ▸ by decide)
      exact .plain (by omega) hquote hbackslash h

/-- An escaped text spells the code points of the text. -/
theorem spells_flatMap_escape (text : Text) :
    Spells (text.flatMap escape) (text.map Char.toNat) := by
  induction text with
  | nil => exact .nil
  | cons ch text ih =>
    rw [List.flatMap_cons, List.map_cons]
    exact ih.escape_append ch

/-- The code points of a string mean the string. -/
theorem map_ofList_text?_toList (value : String) :
    (text? (value.toList.map Char.toNat)).map String.ofList = some value := by
  rw [text?_map_toNat, Option.map_some, String.ofList_toList]

/-- A quoted string is a value of the grammar and means the string. -/
theorem isValue_quoted (value : String) : IsValue (quoted value) (some (.string value)) := by
  have hvalue := IsValue.string (spells_flatMap_escape value.toList)
  rw [text?_map_toNat, Option.map_some, String.ofList_toList] at hvalue
  exact hvalue

/-! ## Values -/

/-- Every number in the value is spelled as a number. -/
inductive IsWellSpelled : Json → Prop
  | null : IsWellSpelled .null
  | bool (value : Bool) : IsWellSpelled (.bool value)
  | number {spelling : String} (h : IsNumber spelling.toList) : IsWellSpelled (.number spelling)
  | string (value : String) : IsWellSpelled (.string value)
  | array {items : List Json} (h : ∀ item ∈ items, IsWellSpelled item) :
    IsWellSpelled (.array items)
  | object {members : List (String × Json)} (h : ∀ member ∈ members, IsWellSpelled member.2) :
    IsWellSpelled (.object members)

section Render

variable {style : Style} (hstyle : style.IsBlank) {level : Nat} {front behind : Text}
  (hfront : IsGap front) (hbehind : IsGap behind)
include hstyle hfront hbehind

/-- Rendered items are the items of an array, if each of them is rendered as a value that means it.
-/
theorem isItems_render {item : Json} {items : List Json}
    (h : ∀ item' ∈ item :: items, IsValue (render style level item') (some item')) :
    IsItems (front ++ render style level item ++ renderItems style level items ++ behind)
      (some (item :: items)) := by
  obtain ⟨hitem, hitems⟩ := List.forall_mem_cons.mp h
  induction items generalizing item front with
  | nil =>
    have helement := IsElement.intro hfront hbehind hitem
    rw [renderItems, List.append_nil, List.append_assoc]
    exact .one helement
  | cons next items ih =>
    obtain ⟨hnext, hlater⟩ := List.forall_mem_cons.mp hitems
    have helement := IsElement.intro hfront isGap_nil hitem
    have hrest := ih (hstyle.newline level) hitems hnext hlater
    rw [renderItems, List.append_assoc, List.cons_append]
    rw [List.append_nil] at helement
    exact .cons helement hrest

theorem isMember_render (name : String) {value : Json}
    (h : IsValue (render style level value) (some value)) :
    IsMember (front ++ quoted name ++ style.colon ++ render style level value ++ behind)
      (some name, some value) := by
  obtain ⟨gap, gap', hgap, hgap', hcolon⟩ := hstyle.colon
  have hmember := IsMember.intro hfront (spells_flatMap_escape name.toList) hgap
    (IsElement.intro hgap' hbehind h)
  rw [map_ofList_text?_toList] at hmember
  rw [hcolon, quoted]
  simp only [List.append_assoc, List.cons_append, List.nil_append] at hmember ⊢
  exact hmember

/-- Rendered members are the members of an object, if each value is rendered as one that means it.
-/
theorem isMembers_render {name : String} {value : Json} {members : List (String × Json)}
    (h : ∀ member ∈ (name, value) :: members,
      IsValue (render style level member.2) (some member.2)) :
    IsMembers (front ++ quoted name ++ style.colon ++ render style level value ++
        renderMembers style level members ++ behind)
      (((name, value) :: members).map fun member => (some member.1, some member.2)) := by
  obtain ⟨hvalue, hmembers⟩ := List.forall_mem_cons.mp h
  induction members generalizing name value front with
  | nil =>
    rw [renderMembers, List.append_nil]
    exact .one (isMember_render hstyle hfront hbehind name hvalue)
  | cons next members ih =>
    have hrest := ih (hstyle.newline level) hmembers (List.forall_mem_cons.mp hmembers).1
      (List.forall_mem_cons.mp hmembers).2
    have hmember := isMember_render hstyle hfront isGap_nil name hvalue
    have hall := IsMembers.cons hmember hrest
    simp only [renderMembers, List.append_assoc, List.cons_append, List.nil_append] at hall ⊢
    exact hall

end Render

/-- Members of which every name and value has a meaning mean these. -/
theorem meant?_map_some (members : List (String × Json)) :
    meant? (members.map fun member => (some member.1, some member.2)) = some members := by
  induction members with
  | nil => rfl
  | cons member members ih =>
    rw [List.map_cons, meant?_cons, ih]
    rfl

/-- What is printed is spelled by the rules of the grammar and means what was printed. -/
theorem isValue_render {style : Style} (hstyle : style.IsBlank) {value : Json}
    (h : IsWellSpelled value) (level : Nat) :
    IsValue (render style level value) (some value) := by
  induction h generalizing level with
  | null => exact .null
  | bool value => cases value with
    | false => exact .no
    | true => exact .yes
  | @number spelling h =>
    have hnumber := IsValue.number h
    rw [String.ofList_toList] at hnumber
    exact hnumber
  | string value => exact isValue_quoted value
  | @array items h ih =>
    cases items with
    | nil => exact .emptyArray isGap_nil
    | cons item items =>
      have hitems := isItems_render hstyle (hstyle.newline (level + 1)) (hstyle.newline level)
        fun item hmem => ih item hmem (level + 1)
      exact .array hitems
  | @object members h ih =>
    cases members with
    | nil => exact .object (.empty isGap_nil)
    | cons member members =>
      obtain ⟨name, value⟩ := member
      have hmembers := isMembers_render hstyle (hstyle.newline (level + 1)) (hstyle.newline level)
        fun member hmem => ih member hmem (level + 1)
      have hobject := IsValue.object (.members hmembers)
      rw [meant?_map_some] at hobject
      exact hobject

/-- The parser gives back what was printed. -/
theorem parse?_print {style : Style} (hstyle : style.IsBlank) {value : Json}
    (h : IsWellSpelled value) : parse? (value.print style).toList = some value := by
  have helement := IsElement.intro isGap_nil isGap_nil (isValue_render hstyle h 0)
  rw [List.nil_append, List.append_nil] at helement
  rw [print, String.toList_ofList]
  exact parse?_eq helement

end Json
end SaveNames
