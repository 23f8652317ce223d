/-!
# Bytes and texts

A stored name is a fixed-size buffer of bytes; what a player reads is a text. Both are lists,
so that every rule of the library is a rule about lists.

The two byte values that all modules share live here: the terminator, which ends a name, and
the fill byte that games write behind it. So do the two ways to make a buffer without writing
a name: a blank one, and one with raw bytes put over the old ones. A buffer in memory cannot be of
any length, but what a buffer of a given length holds is a matter of the length alone.
-/

namespace SaveNames

/-- The contents of a name buffer. -/
abbrev Bytes := List UInt8

/-- A name as a sequence of characters. -/
abbrev Text := List Char

/-- Ends a name. It stands for no character in any set. -/
def terminator : UInt8 := 0xFF

/-- The pad byte of buffers that are not padded with zeros. -/
def fixedFill : UInt8 := 0x50

/-- The greatest length of a buffer in memory, where distances are signed words of 64 bits. -/
def maxBufferLength : Nat := 0x7FFFFFFFFFFFFFFF

/-- A buffer of terminators, which holds the empty name. -/
def blankBuffer (length : Nat) : Bytes := List.replicate length terminator

/-- The buffer with raw bytes put over the old ones from an offset on, and how many of them
were put. Bytes that would fall past the end are dropped. -/
def overwrite (data : Bytes) (offset : Nat) (bytes : Bytes) : Bytes × Nat :=
  ((data.take offset ++ bytes ++ data.drop (offset + bytes.length)).take data.length,
    min bytes.length (data.length - offset))

/-- Raw bytes put over a buffer leave its length as it is. -/
theorem length_overwrite (data : Bytes) (offset : Nat) (bytes : Bytes) :
    (overwrite data offset bytes).1.length = data.length := by
  simp only [overwrite, List.length_take, List.length_append, List.length_drop]
  omega

end SaveNames
