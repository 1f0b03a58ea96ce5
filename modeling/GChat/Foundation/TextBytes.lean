import Mathlib.Data.List.Basic
import Mathlib.Data.String.Basic

/-!
# Texts and their UTF-8 bytes

Writing a text as UTF-8 and reading it back strictly, so that bytes that are no UTF-8 have no
text. A decoder may leave out a byte order mark at the front.
-/

namespace Foundation

def utf8 (text : String) : List UInt8 := text.toByteArray.data.toList

/-- The text of bytes that are well-formed UTF-8. -/
def fromUtf8 (bytes : List UInt8) : Option String := String.fromUTF8? ⟨bytes.toArray⟩

theorem fromUtf8_utf8 (text : String) : fromUtf8 (utf8 text) = some text := by
  have hbytes : (⟨(utf8 text).toArray⟩ : ByteArray) = text.toByteArray := by
    rw [utf8, Array.toArray_toList]
  unfold fromUtf8 String.fromUTF8?
  rw [hbytes, dif_pos text.isValidUTF8]
  rfl

theorem utf8_injective {s t : String} (h : utf8 s = utf8 t) : s = t :=
  Option.some.inj ((fromUtf8_utf8 s).symm.trans ((congrArg fromUtf8 h).trans
    (fromUtf8_utf8 t)))

theorem length_utf8 (text : String) : (utf8 text).length = text.utf8ByteSize := rfl

/-- The bytes of the byte order mark. -/
def byteOrderMark : List UInt8 := [0xEF, 0xBB, 0xBF]

/-- The text of bytes without a byte order mark at their front. -/
def decodeText (bytes : List UInt8) : Option String :=
  fromUtf8 (if byteOrderMark.isPrefixOf bytes then bytes.drop 3 else bytes)

end Foundation
