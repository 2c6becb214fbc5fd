import MangledNames.Text.Utf8

/-!
# ASCII in the bytes of a text

A byte below 128 is a character on its own, and the bytes of every other character are all at least
128. So ASCII bytes are always text, and where they stand in a row among the bytes of a text, their
characters stand in a row in it: no longer character can hide or fake one of them.
-/

namespace MangledNames.Text

/-- One character for each byte. -/
def ofAscii (bytes : List UInt8) : String := String.ofList (bytes.map Char.ofUInt8)

theorem utf8_ofList (chars : List Char) :
    utf8 (String.ofList chars) = chars.flatMap String.utf8EncodeChar := by
  unfold utf8
  rw [String.toUTF8_eq_toByteArray, String.toByteArray_ofList]
  simp [List.utf8Encode]

theorem utf8_eq_flatMap (text : String) :
    utf8 text = text.toList.flatMap String.utf8EncodeChar := by
  rw [← utf8_ofList, String.ofList_toList]

theorem toNat_val_ofUInt8 (byte : UInt8) : (Char.ofUInt8 byte).val.toNat = byte.toNat :=
  UInt8.toNat_toUInt32 byte

theorem utf8EncodeChar_ofUInt8 {byte : UInt8} (hbyte : byte < 128) :
    String.utf8EncodeChar (Char.ofUInt8 byte) = [byte] := by
  have hle : byte.toNat ≤ 0x7f := by
    have hlt := UInt8.lt_iff_toNat_lt.mp hbyte
    have h128 : (128 : UInt8).toNat = 128 := rfl
    omega
  unfold String.utf8EncodeChar
  simp only [toNat_val_ofUInt8, hle, if_true, UInt8.ofNat_toNat]

theorem utf8_ofAscii {bytes : List UInt8} (hascii : ∀ byte ∈ bytes, byte < 128) :
    utf8 (ofAscii bytes) = bytes := by
  rw [ofAscii, utf8_ofList, List.flatMap_map]
  induction bytes with
  | nil => rfl
  | cons byte bytes ih =>
      rw [List.flatMap_cons, utf8EncodeChar_ofUInt8 (hascii byte (by simp)),
        ih fun other hmem => hascii other (by simp [hmem])]
      rfl

theorem ofUtf8?_eq_ofAscii {bytes : List UInt8} (hascii : ∀ byte ∈ bytes, byte < 128) :
    ofUtf8? bytes = some (ofAscii bytes) :=
  ofUtf8?_eq_some_iff.2 (utf8_ofAscii hascii)

theorem ofAscii_utf8 {text : String} (hascii : ∀ byte ∈ utf8 text, byte < 128) :
    ofAscii (utf8 text) = text := by
  apply Option.some.inj
  rw [← ofUtf8?_eq_ofAscii hascii, ofUtf8?_utf8]

theorem le_ofNat {value : Nat} (hlow : 128 ≤ value) (hhigh : value < 256) :
    128 ≤ UInt8.ofNat value := by
  rw [UInt8.le_iff_toNat_le, UInt8.toNat_ofNat_of_lt' hhigh]
  exact hlow

/-- A character is written as one byte below 128, or as bytes that are all above. -/
theorem utf8EncodeChar_ascii_or_high (c : Char) :
    (∃ byte : UInt8, byte < 128 ∧ c = Char.ofUInt8 byte) ∨
      ∀ byte ∈ String.utf8EncodeChar c, 128 ≤ byte := by
  by_cases hle : c.val.toNat ≤ 0x7f
  · left
    have hsize : c.val.toNat < UInt8.size := Nat.lt_of_le_of_lt hle (by decide)
    refine ⟨UInt8.ofNat c.val.toNat, ?_, ?_⟩
    · rw [UInt8.lt_iff_toNat_lt, UInt8.toNat_ofNat_of_lt' hsize]
      exact Nat.lt_of_le_of_lt hle (by decide)
    · apply Char.ext
      apply UInt32.toNat_inj.mp
      rw [toNat_val_ofUInt8, UInt8.toNat_ofNat_of_lt' hsize]
  · right
    intro byte hmem
    unfold String.utf8EncodeChar at hmem
    by_cases htwo : c.val.toNat ≤ 0x7ff
    · simp only [hle, htwo, if_true, if_false, List.mem_cons, List.not_mem_nil, or_false] at hmem
      rcases hmem with rfl | rfl <;> exact le_ofNat (by omega) (by omega)
    by_cases hthree : c.val.toNat ≤ 0xffff
    · simp only [hle, htwo, hthree, if_true, if_false, List.mem_cons, List.not_mem_nil,
        or_false] at hmem
      rcases hmem with rfl | rfl | rfl <;> exact le_ofNat (by omega) (by omega)
    · simp only [hle, htwo, hthree, if_false, List.mem_cons, List.not_mem_nil, or_false] at hmem
      rcases hmem with rfl | rfl | rfl | rfl <;> exact le_ofNat (by omega) (by omega)

theorem map_isPrefix_of_utf8 {bytes : List UInt8} (hascii : ∀ byte ∈ bytes, byte < 128) :
    ∀ {chars : List Char}, bytes <+: chars.flatMap String.utf8EncodeChar →
      bytes.map Char.ofUInt8 <+: chars := by
  induction bytes with
  | nil => exact fun _ => List.nil_prefix
  | cons byte bytes ih =>
      intro chars hbegin
      cases chars with
      | nil => simp at hbegin
      | cons c chars =>
          rw [List.flatMap_cons] at hbegin
          rcases utf8EncodeChar_ascii_or_high c with ⟨code, hcode, rfl⟩ | hhigh
          · rw [utf8EncodeChar_ofUInt8 hcode, List.singleton_append,
              List.cons_prefix_cons] at hbegin
            obtain ⟨rfl, hrest⟩ := hbegin
            rw [List.map_cons, List.cons_prefix_cons]
            exact ⟨rfl, ih (fun other hmem => hascii other (by simp [hmem])) hrest⟩
          · obtain ⟨first, others, hbytes⟩ :=
              List.exists_cons_of_ne_nil (@String.utf8EncodeChar_ne_nil c)
            rw [hbytes, List.cons_append, List.cons_prefix_cons] at hbegin
            have hfirst := hhigh first (by simp [hbytes])
            have hbyte := hascii byte (by simp)
            rw [hbegin.1] at hbyte
            exact absurd hfirst (UInt8.not_le.mpr hbyte)

/-- ASCII does not begin among the bytes of a longer character. -/
theorem isInfix_of_high_append {bytes high rest : List UInt8} (hbytes : bytes ≠ [])
    (hascii : ∀ byte ∈ bytes, byte < 128) (hhigh : ∀ byte ∈ high, 128 ≤ byte)
    (hwithin : bytes <:+: high ++ rest) : bytes <:+: rest := by
  induction high with
  | nil => exact hwithin
  | cons first high ih =>
      rw [List.cons_append, List.infix_cons_iff] at hwithin
      rcases hwithin with hbegin | hwithin
      · obtain ⟨byte, others, rfl⟩ := List.exists_cons_of_ne_nil hbytes
        rw [List.cons_prefix_cons] at hbegin
        have hlow := hascii byte (by simp)
        rw [hbegin.1] at hlow
        exact absurd (hhigh first (by simp)) (UInt8.not_le.mpr hlow)
      · exact ih (fun byte hmem => hhigh byte (by simp [hmem])) hwithin

/-- ASCII bytes in the bytes of a text are its characters. -/
theorem map_isInfix_of_utf8 {bytes : List UInt8} (hbytes : bytes ≠ [])
    (hascii : ∀ byte ∈ bytes, byte < 128) {text : String} (hwithin : bytes <:+: utf8 text) :
    bytes.map Char.ofUInt8 <:+: text.toList := by
  rw [utf8_eq_flatMap] at hwithin
  generalize text.toList = chars at hwithin
  induction chars with
  | nil => exact absurd (List.infix_nil.mp hwithin) hbytes
  | cons c chars ih =>
      rw [List.flatMap_cons] at hwithin
      rcases utf8EncodeChar_ascii_or_high c with ⟨code, hcode, rfl⟩ | hhigh
      · rw [utf8EncodeChar_ofUInt8 hcode, List.singleton_append, List.infix_cons_iff] at hwithin
        rcases hwithin with hbegin | hwithin
        · have hwhole : bytes <+: (Char.ofUInt8 code :: chars).flatMap String.utf8EncodeChar := by
            rwa [List.flatMap_cons, utf8EncodeChar_ofUInt8 hcode, List.singleton_append]
          exact (map_isPrefix_of_utf8 hascii hwhole).isInfix
        · exact (ih hwithin).trans (List.suffix_cons _ _).isInfix
      · exact (ih (isInfix_of_high_append hbytes hascii hhigh hwithin)).trans
          (List.suffix_cons _ _).isInfix

end MangledNames.Text
