/-!
# Text and its bytes

Reading bytes as text refuses exactly what is no text's bytes.
-/

namespace MangledNames.Text

def utf8 (text : String) : List UInt8 := text.toUTF8.data.toList

def ofUtf8? (bytes : List UInt8) : Option String := String.fromUTF8? ⟨bytes.toArray⟩

theorem ofUtf8?_eq_some_iff {bytes : List UInt8} {text : String} :
    ofUtf8? bytes = some text ↔ utf8 text = bytes := by
  unfold ofUtf8? utf8 String.fromUTF8?
  constructor
  · intro h
    split at h
    · obtain rfl := Option.some.inj h
      rfl
    · cases h
  · rintro rfl
    have hvalid : (⟨text.toUTF8.data.toList.toArray⟩ : ByteArray).IsValidUTF8 := by
      simpa using text.isValidUTF8
    rw [dif_pos hvalid]
    rfl

@[simp]
theorem ofUtf8?_utf8 (text : String) : ofUtf8? (utf8 text) = some text :=
  ofUtf8?_eq_some_iff.2 rfl

end MangledNames.Text
