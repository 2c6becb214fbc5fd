/-!
# The wording of tables and thunks

A symbol for a table or a thunk is first written with braces around it, as `{vtable(T)}`, and then
worded as the runtime library of C++ words it, as `vtable for T`. The code with which the symbol
begins selects the wording. A text that is not in the braces of the selected wording stays as it is.

A thunk is written with its offsets in front, each in braces. All groups in braces at the beginning
of the text between the braces are left out, and the separators after them.
-/

namespace MangledNames.Symbol

structure SpecialWording where
  code : String
  opening : String
  label : String
  deriving DecidableEq, Repr

namespace SpecialWording

def all : List SpecialWording :=
  [⟨"_ZTV", "\x7bvtable(", "vtable for "⟩,
    ⟨"_ZTT", "\x7bvtt(", "VTT for "⟩,
    ⟨"_ZTh", "\x7bvirtual override thunk(", "non-virtual thunk to "⟩,
    ⟨"_ZTv", "\x7bvirtual override thunk(", "virtual thunk to "⟩,
    ⟨"_ZTc", "\x7bvirtual override thunk(", "covariant return thunk to "⟩]

/-- The wording for symbols that begin with the code. -/
def of? (symbol : List Char) : Option SpecialWording :=
  all.find? fun wording => wording.code.toList.isPrefixOf symbol

def closing : List Char := [')', '\x7d']

/-- The text between the opening and the closing. -/
def body? (wording : SpecialWording) (written : List Char) : Option (List Char) :=
  if wording.opening.toList.isPrefixOf written then
    let rest := written.drop wording.opening.toList.length
    if closing.isSuffixOf rest then some (rest.take (rest.length - closing.length)) else none
  else none

mutual

/-- Leaves out the rest of a group and what is left out after it. A group that is not closed is
refused. -/
def afterBrace? : List Char → Option (List Char)
  | [] => none
  | c :: text => if c = '\x7d' then afterGroup? text else afterBrace? text

/-- Leaves out separators and further groups. -/
def afterGroup? : List Char → Option (List Char)
  | ',' :: ' ' :: text => afterGroup? text
  | '\x7b' :: text => afterBrace? text
  | text => some text

end

/-- Leaves out the groups in braces at the beginning. -/
def withoutGroups? : List Char → Option (List Char)
  | '\x7b' :: text => afterBrace? text
  | text => some text

def worded? (wording : SpecialWording) (written : List Char) : Option (List Char) :=
  ((wording.body? written).bind withoutGroups?).map (wording.label.toList ++ ·)

end SpecialWording

/-- The wording of a symbol whose text has been written with braces. -/
def specialName (symbol written : String) : String :=
  match (SpecialWording.of? symbol.toList).bind (·.worded? written.toList) with
  | none => written
  | some text => String.ofList text

end MangledNames.Symbol
