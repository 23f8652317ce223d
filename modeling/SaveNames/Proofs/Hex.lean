import SaveNames.Hex

/-!
# Hex dumps, printed and parsed

A separator cuts a dump in two (`tokens_append_separator`), and a printed byte is a token of its
own (`tokens_print`) whose two digits give the byte back (`tokenBytes_digits`). So **a printed
dump parses to the bytes it was printed from** (`parse_print`). Nothing but digits and spaces
stands in it (`forall_mem_print`), so it is one line.
-/

namespace SaveNames
namespace Hex

/-! ## Digits -/

theorem value?_upper : ∀ value < 16, HexDigit.value? (HexDigit.upper value) = some value := by
  decide

theorem isSeparator_upper : ∀ value < 16, isSeparator (HexDigit.upper value) = false := by
  decide

/-- No digit is the second character of a marker. -/
theorem upper_ne_marker : ∀ value < 16,
    HexDigit.upper value ≠ 'x' ∧ HexDigit.upper value ≠ 'X' := by
  decide

theorem high_lt (byte : UInt8) : byte.toNat / 16 < 16 := by
  have hbyte : byte.toNat < 256 := byte.toNat_lt
  omega

theorem low_lt (byte : UInt8) : byte.toNat % 16 < 16 := Nat.mod_lt _ (by omega)

/-- What holds for every digit holds for the two that print a byte. -/
theorem forall_mem_digits {P : Char → Prop} (hdigit : ∀ value < 16, P (HexDigit.upper value))
    (byte : UInt8) : ∀ ch ∈ digits byte, P ch := by
  intro ch hmem
  rcases List.mem_cons.mp hmem with rfl | hmem
  · exact hdigit _ (high_lt byte)
  · rw [List.mem_singleton.mp hmem]
    exact hdigit _ (low_lt byte)

/-- The two digits of a byte give the byte back. -/
theorem pairs?_digits (byte : UInt8) : pairs? (digits byte) = some [byte] := by
  have hvalue : 16 * (byte.toNat / 16) + byte.toNat % 16 = byte.toNat := Nat.div_add_mod _ 16
  rw [digits, pairs?, value?_upper _ (high_lt byte), value?_upper _ (low_lt byte)]
  show some [UInt8.ofNat (16 * (byte.toNat / 16) + byte.toNat % 16)] = some [byte]
  rw [hvalue, UInt8.ofNat_toNat]

/-- The digits of a byte carry no marker, so they are their own body. -/
theorem body_digits (byte : UInt8) : body (digits byte) = digits byte := by
  have hlow := upper_ne_marker _ (low_lt byte)
  unfold body
  split
  · next hmarker => exact absurd (List.cons.inj (List.cons.inj hmarker).2).1 hlow.1
  · next hmarker => exact absurd (List.cons.inj (List.cons.inj hmarker).2).1 hlow.2
  · rfl

/-- A printed byte is a token that denotes this byte alone. -/
theorem tokenBytes_digits (byte : UInt8) : tokenBytes (digits byte) = .ok [byte] := by
  rw [tokenBytes, body_digits, pairs?_digits]

/-! ## Tokens -/

/-- A text without separators is one piece. -/
theorem pieces_word {word : Text} (hword : ∀ ch ∈ word, isSeparator ch = false) :
    pieces word = [word] := by
  induction word with
  | nil => rfl
  | cons ch word ih =>
    obtain ⟨hch, hrest⟩ := List.forall_mem_cons.mp hword
    rw [pieces, hch, ih hrest]

theorem pieces_ne_nil (text : Text) : pieces text ≠ [] := by
  cases text with
  | nil => simp [pieces]
  | cons ch rest =>
    unfold pieces
    split <;> simp

section Separator

variable {separator : Char} (h : isSeparator separator = true) (front behind : Text)
include h

/-- No piece reaches over a separator. -/
theorem pieces_append_separator :
    pieces (front ++ separator :: behind) = pieces front ++ pieces behind := by
  induction front with
  | nil =>
    show pieces (separator :: behind) = [] :: pieces behind
    rw [pieces, h]
  | cons ch front ih =>
    rw [List.cons_append, pieces, ih, pieces]
    obtain ⟨first, later, hpieces⟩ := List.exists_cons_of_ne_nil (pieces_ne_nil front)
    rw [hpieces]
    cases isSeparator ch <;> rfl

/-- A separator cuts a dump in two: the tokens in front of it, then those behind it. -/
theorem tokens_append_separator :
    tokens (front ++ separator :: behind) = tokens front ++ tokens behind := by
  rw [tokens, pieces_append_separator h, List.filter_append]
  rfl

end Separator

/-- The tokens of a printed dump are its bytes, each one printed. -/
theorem tokens_print (bytes : Bytes) : tokens (print bytes) = bytes.map digits := by
  have hdigits : ∀ byte, tokens (digits byte) = [digits byte] := by
    intro byte
    rw [tokens, pieces_word (forall_mem_digits isSeparator_upper byte)]
    rfl
  have hspace : isSeparator ' ' = true := by decide
  match bytes with
  | [] => rfl
  | [byte] =>
    rw [print, List.map_singleton, List.intercalate_singleton]
    exact hdigits byte
  | byte :: next :: rest =>
    have hrest := tokens_print (next :: rest)
    rw [print] at hrest
    rw [print, List.map_cons, List.map_cons, List.intercalate_cons_cons, List.append_assoc,
      List.singleton_append, tokens_append_separator hspace, hdigits, ← List.map_cons, hrest]
    rfl

/-! ## Dumps -/

/-- What holds for every digit and for the space holds for all of a printed dump. -/
theorem forall_mem_print {P : Char → Prop} (hdigit : ∀ value < 16, P (HexDigit.upper value))
    (hspace : P ' ') (bytes : Bytes) : ∀ ch ∈ print bytes, P ch := by
  match bytes with
  | [] => simp [print]
  | [byte] =>
    rw [print, List.map_singleton, List.intercalate_singleton]
    exact forall_mem_digits hdigit byte
  | byte :: next :: rest =>
    rw [print, List.map_cons, List.map_cons, List.intercalate_cons_cons, ← List.map_cons]
    intro ch hmem
    rcases List.mem_append.mp hmem with hfront | hrest
    · rcases List.mem_append.mp hfront with hbyte | hseparator
      · exact forall_mem_digits hdigit byte ch hbyte
      · rw [List.mem_singleton.mp hseparator]
        exact hspace
    · exact forall_mem_print hdigit hspace (next :: rest) ch hrest

/-- Printed bytes are read one by one, and none of them is refused. -/
theorem mapM_tokenBytes_digits (bytes : Bytes) :
    (bytes.map digits).mapM tokenBytes = .ok (bytes.map fun byte => [byte]) := by
  induction bytes with
  | nil => rfl
  | cons byte bytes ih =>
    rw [List.map_cons, List.mapM_cons, tokenBytes_digits, ih]
    rfl

/-- A printed dump parses to its bytes. -/
theorem parse_print (bytes : Bytes) : parse (print bytes) = .ok bytes := by
  have hflatten : (bytes.map fun byte => [byte]).flatten = bytes := by
    rw [← List.flatMap_def, List.flatMap_singleton']
  rw [parse, tokens_print, mapM_tokenBytes_digits]
  show Except.ok (bytes.map fun byte => [byte]).flatten = _
  rw [hflatten]

end Hex
end SaveNames
