import MangledNames.Proofs.Text.Ascii

/-!
# Places between characters

An ASCII byte is a character on its own, so there is a place between characters in front of it and
one behind it, wherever among the bytes of a text it stands. Between two such places there is text.
-/

namespace MangledNames.Text

theorem utf8_append (left right : String) : utf8 (left ++ right) = utf8 left ++ utf8 right := by
  rw [utf8_eq_flatMap, utf8_eq_flatMap, utf8_eq_flatMap, String.toList_append, List.flatMap_append]

theorem utf8_join (texts : List String) : utf8 (String.join texts) = (texts.map utf8).flatten := by
  induction texts with
  | nil => rfl
  | cons text texts ih =>
      rw [String.join_cons, utf8_append, ih, List.map_cons, List.flatten_cons]

theorem utf8_inj {left right : String} (heq : utf8 left = utf8 right) : left = right :=
  Option.some.inj ((ofUtf8?_utf8 left).symm.trans (by rw [heq, ofUtf8?_utf8]))

theorem length_utf8 (text : String) : (utf8 text).length = text.utf8ByteSize := by
  rw [utf8, Array.length_toList, String.toUTF8_eq_toByteArray]
  exact String.size_toByteArray

/-- The bytes of a longer character are all in front of an ASCII byte, or none is. -/
theorem append_eq_of_high {byte : UInt8} (hbyte : byte < 128) {high rest left right : List UInt8}
    (hhigh : ∀ other ∈ high, 128 ≤ other) (heq : high ++ rest = left ++ byte :: right) :
    ∃ others, left = high ++ others ∧ rest = others ++ byte :: right := by
  rcases List.append_eq_append_iff.mp heq with hfound | ⟨others, hleft, hright⟩
  · exact hfound
  · cases others with
    | nil => exact ⟨[], by simpa using hleft.symm, by simpa using hright.symm⟩
    | cons first others =>
        rw [List.cons_append] at hright
        have hmem : byte ∈ high := by
          rw [hleft, (List.cons.inj hright).1]
          simp
        exact absurd (hhigh byte hmem) (UInt8.not_le.mpr hbyte)

theorem exists_chars_of_ascii {byte : UInt8} (hbyte : byte < 128) {chars : List Char}
    {left right : List UInt8}
    (hbytes : chars.flatMap String.utf8EncodeChar = left ++ byte :: right) :
    ∃ before after : List Char, before.flatMap String.utf8EncodeChar = left ∧
      after.flatMap String.utf8EncodeChar = right := by
  induction chars generalizing left with
  | nil => simp at hbytes
  | cons c chars ih =>
      rw [List.flatMap_cons] at hbytes
      rcases utf8EncodeChar_ascii_or_high c with ⟨code, hcode, rfl⟩ | hhigh
      · rw [utf8EncodeChar_ofUInt8 hcode, List.singleton_append] at hbytes
        cases left with
        | nil => exact ⟨[], chars, rfl, (List.cons.inj hbytes).2⟩
        | cons first left =>
            obtain ⟨rfl, hrest⟩ := List.cons.inj hbytes
            obtain ⟨before, after, hbefore, hafter⟩ := ih hrest
            refine ⟨Char.ofUInt8 code :: before, after, ?_, hafter⟩
            rw [List.flatMap_cons, utf8EncodeChar_ofUInt8 hcode, hbefore, List.singleton_append]
      · obtain ⟨others, rfl, hrest⟩ := append_eq_of_high hbyte hhigh hbytes
        obtain ⟨before, after, hbefore, hafter⟩ := ih hrest
        refine ⟨c :: before, after, ?_, hafter⟩
        rw [List.flatMap_cons, hbefore]

theorem exists_parts_of_ascii {byte : UInt8} (hbyte : byte < 128) {text : String}
    {left right : List UInt8} (hbytes : utf8 text = left ++ byte :: right) :
    ∃ before after, utf8 before = left ∧ utf8 after = right := by
  rw [utf8_eq_flatMap] at hbytes
  obtain ⟨before, after, hbefore, hafter⟩ := exists_chars_of_ascii hbyte hbytes
  exact ⟨String.ofList before, String.ofList after, by rw [utf8_ofList, hbefore],
    by rw [utf8_ofList, hafter]⟩

theorem isValid_of_parts {text before after : String}
    (hbytes : utf8 text = utf8 before ++ utf8 after) :
    String.Pos.Raw.IsValid text ⟨(utf8 before).length⟩ := by
  rw [String.Pos.Raw.isValid_iff_exists_append]
  refine ⟨before, after, utf8_inj (hbytes.trans (utf8_append before after).symm), ?_⟩
  rw [length_utf8]
  rfl

theorem isValid_zero (text : String) : String.Pos.Raw.IsValid text ⟨0⟩ :=
  String.Pos.Raw.isValid_zero

theorem isValid_length (text : String) : String.Pos.Raw.IsValid text ⟨(utf8 text).length⟩ := by
  rw [length_utf8]
  exact String.Pos.Raw.isValid_rawEndPos

/-- In front of an ASCII byte and behind it, a text may be cut. -/
theorem isValid_of_ascii {byte : UInt8} (hbyte : byte < 128) {text : String}
    {left right : List UInt8} (hbytes : utf8 text = left ++ byte :: right) :
    String.Pos.Raw.IsValid text ⟨left.length⟩ ∧
      String.Pos.Raw.IsValid text ⟨left.length + 1⟩ := by
  obtain ⟨before, after, hbefore, hafter⟩ := exists_parts_of_ascii hbyte hbytes
  have hsingle : utf8 (ofAscii [byte]) = [byte] := utf8_ofAscii (by simpa using hbyte)
  have hfront : utf8 text = utf8 before ++ utf8 (ofAscii [byte] ++ after) := by
    rw [utf8_append, hsingle, hbefore, hafter, hbytes]
    rfl
  have hbehind : utf8 text = utf8 (before ++ ofAscii [byte]) ++ utf8 after := by
    rw [utf8_append, hsingle, hbefore, hafter, hbytes, List.append_assoc]
    rfl
  have hplaces := And.intro (isValid_of_parts hfront) (isValid_of_parts hbehind)
  rwa [utf8_append, hsingle, hbefore, List.length_append, List.length_singleton] at hplaces

/-- The bytes between two places are those of a text. -/
theorem ofUtf8?_between {text : String} {start stop : Nat} (hle : start ≤ stop)
    (hstart : String.Pos.Raw.IsValid text ⟨start⟩) (hstop : String.Pos.Raw.IsValid text ⟨stop⟩) :
    ∃ part, ofUtf8? ((utf8 text).toArray.extract start stop).toList = some part := by
  have hvalid : (text.toByteArray.extract start stop).IsValidUTF8 :=
    (String.Pos.Raw.isValidUTF8_extract_iff ⟨start⟩ ⟨stop⟩ hle hstop.le_rawEndPos).mpr
      (.inr ⟨hstart, hstop⟩)
  refine ⟨⟨_, hvalid⟩, ?_⟩
  rw [ofUtf8?_eq_some_iff]
  simp [utf8]

end MangledNames.Text
