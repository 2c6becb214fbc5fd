/-!
The closed vocabularies of mangled names: the fundamental types, the overloadable operators and the
abbreviations for entities of the standard library, each with its code and its spelling.

No code of a vocabulary begins another one, so at most one word fits at any place of a text and the
order of the words does not matter.
-/

namespace MangledNames.Symbol

/-- A word of a vocabulary is written as a code and means a value. -/
abbrev Vocabulary (α : Type) := List (List Char × α)

namespace Vocabulary

/-- The word with which the text begins. -/
def wordOf? {α : Type} (words : Vocabulary α) (text : List Char) : Option (List Char × α) :=
  List.find? (fun word => word.1.isPrefixOf text) words

end Vocabulary

/-- How a literal of a fundamental type is written in a template argument. -/
inductive LiteralStyle where
  | boolean
  | null
  | integer
  | floating
  | cast
  deriving DecidableEq, Repr

structure FundamentalType where
  spelling : String
  literal : LiteralStyle
  deriving DecidableEq, Repr

namespace FundamentalType

def void : FundamentalType := ⟨"void", .cast⟩

private def plain : List (String × String) :=
  [("w", "wchar_t"), ("c", "char"), ("a", "signed char"), ("h", "unsigned char"), ("s", "short"),
   ("t", "unsigned short"), ("j", "unsigned int"), ("l", "long"), ("m", "unsigned long"),
   ("x", "long long"), ("y", "unsigned long long"), ("n", "__int128"), ("o", "unsigned __int128"),
   ("e", "long double"), ("g", "__float128"), ("z", "..."), ("Dd", "decimal64"),
   ("De", "decimal128"), ("Df", "decimal32"), ("Dh", "half"), ("DF16b", "std::bfloat16_t"),
   ("Di", "char32_t"), ("Ds", "char16_t"), ("Du", "char8_t"), ("Da", "auto"),
   ("Dc", "decltype(auto)")]

private def fixedPointSizes : List (String × String) :=
  [("s", "short "), ("t", "unsigned short "), ("i", ""), ("j", "unsigned "), ("l", "long "),
   ("m", "unsigned long ")]

private def fixedPoint : List (String × String) :=
  [("DA", "", "_Accum"), ("DR", "", "_Fract"), ("DSDA", "_Sat ", "_Accum"),
    ("DSDR", "_Sat ", "_Fract")].flatMap fun (code, saturation, kind) =>
      fixedPointSizes.map fun (size, word) => (code ++ size, saturation ++ word ++ kind)

def vocabulary : Vocabulary FundamentalType :=
  [("v".toList, void), ("b".toList, ⟨"bool", .boolean⟩), ("i".toList, ⟨"int", .integer⟩),
    ("f".toList, ⟨"float", .floating⟩), ("d".toList, ⟨"double", .floating⟩),
    ("Dn".toList, ⟨"std::nullptr_t", .null⟩)] ++
  (plain ++ fixedPoint).map fun (code, spelling) => (code.toList, ⟨spelling, .cast⟩)

end FundamentalType

/-- What sets the writing of an operator apart, alone or in an expression. -/
inductive OperatorForm where
  | plain
  /-- A word, set off from what stands before it. -/
  | word
  /-- An increment or decrement, which follows its operand. -/
  | step
  /-- The sign that also closes an argument list. -/
  | greater
  | conditional
  deriving DecidableEq, Repr

structure Operator where
  spelling : String
  arity : Nat
  form : OperatorForm
  deriving DecidableEq, Repr

namespace Operator

private def plain : List (String × String × Nat) :=
  [("ps", "+", 1), ("ng", "-", 1), ("ad", "&", 1), ("de", "*", 1), ("co", "~", 1), ("pl", "+", 2),
   ("mi", "-", 2), ("ml", "*", 2), ("dv", "/", 2), ("rm", "%", 2), ("an", "&", 2), ("or", "|", 2),
   ("eo", "^", 2), ("aS", "=", 2), ("pL", "+=", 2), ("mI", "-=", 2), ("mL", "*=", 2),
   ("dV", "/=", 2), ("rM", "%=", 2), ("aN", "&=", 2), ("oR", "|=", 2), ("eO", "^=", 2),
   ("ls", "<<", 2), ("rs", ">>", 2), ("lS", "<<=", 2), ("rS", ">>=", 2), ("eq", "==", 2),
   ("ne", "!=", 2), ("lt", "<", 2), ("le", "<=", 2), ("ge", ">=", 2), ("nt", "!", 1),
   ("aa", "&&", 2), ("oo", "||", 2), ("cm", ",", 2), ("pm", "->*", 2), ("pt", "->", 2),
   ("cl", "()", 2), ("ix", "[]", 2), ("ss", "<=>", 2)]

def vocabulary : Vocabulary Operator :=
  [("nw".toList, ⟨"new", 3, .word⟩), ("na".toList, ⟨"new[]", 3, .word⟩),
    ("dl".toList, ⟨"delete", 1, .word⟩), ("da".toList, ⟨"delete[]", 1, .word⟩),
    ("pp".toList, ⟨"++", 1, .step⟩), ("mm".toList, ⟨"--", 1, .step⟩),
    ("gt".toList, ⟨">", 2, .greater⟩), ("qu".toList, ⟨"?:", 3, .conditional⟩)] ++
  plain.map fun (code, spelling, arity) => (code.toList, ⟨spelling, arity, .plain⟩)

/-- The characters with which the code of an operator begins. -/
def initials : List Char := vocabulary.filterMap fun word => word.1.head?

end Operator

inductive StandardEntity where
  | std
  | allocator
  | basicString
  | string
  | istream
  | ostream
  | iostream
  deriving DecidableEq, Repr

namespace StandardEntity

def vocabulary : Vocabulary StandardEntity :=
  [("St".toList, std), ("Sa".toList, allocator), ("Sb".toList, basicString), ("Ss".toList, string),
    ("Si".toList, istream), ("So".toList, ostream), ("Sd".toList, iostream)]

def spelling : StandardEntity → String
  | std => "std"
  | allocator => "std::allocator"
  | basicString => "std::basic_string"
  | string => "std::string"
  | istream => "std::basic_istream<char, std::char_traits<char> >"
  | ostream => "std::ostream"
  | iostream => "std::basic_iostream<char, std::char_traits<char> >"

/-- The name that the constructors of the class carry, which the namespace itself has not. -/
def className? : StandardEntity → Option String
  | std => none
  | allocator => some "allocator"
  | basicString => some "basic_string"
  | string => some "string"
  | istream => some "basic_istream"
  | ostream => some "ostream"
  | iostream => some "basic_iostream"

end StandardEntity

end MangledNames.Symbol
