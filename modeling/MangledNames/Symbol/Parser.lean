import MangledNames.Symbol.Table

/-!
Parsers of mangled names.

A parser reads the text from its front and extends the table of components. Going back to an
earlier place of the text does not take entries out of the table again: what an abandoned reading
has entered keeps its number. Nesting beyond a limit is a failure of its own that no alternative
can mend; any other failure lets the next alternative try.
-/

namespace MangledNames.Symbol

structure Reading where
  rest : List Char
  table : Table
  /-- The type that is being read is the one that a conversion operator converts to. -/
  inConversion : Bool

inductive Refusal where
  | mismatch
  | nestedTooDeep
  deriving DecidableEq, Repr

def Parser (α : Type) := EStateM Refusal Reading α

namespace Parser

variable {α : Type}

instance : Monad Parser := inferInstanceAs (Monad (EStateM Refusal Reading))

instance : MonadStateOf Reading Parser :=
  inferInstanceAs (MonadStateOf Reading (EStateM Refusal Reading))

def run (parser : Parser α) (reading : Reading) : EStateM.Result Refusal Reading α :=
  parser reading

def fail : Parser α := fun reading => .error .mismatch reading

def nestedTooDeep : Parser α := fun reading => .error .nestedTooDeep reading

/-- After a mismatch, goes back in the text and tries the second parser. -/
def orElse (first : Parser α) (second : Unit → Parser α) : Parser α := fun reading =>
  match first reading with
  | .error .mismatch after => second () { after with rest := reading.rest }
  | result => result

instance : OrElse (Parser α) := ⟨orElse⟩

def optional (parser : Parser α) : Parser (Option α) :=
  (some <$> parser) <|> pure none

def rest : Parser (List Char) := return (← get).rest

def peek : Parser (Option Char) := return (← rest).head?

def advanceTo (rest : List Char) : Parser Unit :=
  modify fun reading => { reading with rest }

/-- Reads these characters if the text begins with them. -/
def eat (text : String) : Parser Bool := do
  let rest ← rest
  if text.toList.isPrefixOf rest then
    advanceTo (rest.drop text.toList.length)
    return true
  return false

def expect (text : String) : Parser Unit := do
  unless ← eat text do fail

def anyChar : Parser Char := do
  match ← rest with
  | [] => fail
  | c :: rest =>
    advanceTo rest
    return c

def word (words : Vocabulary α) : Parser α := do
  let rest ← rest
  match words.wordOf? rest with
  | none => fail
  | some (code, value) =>
    advanceTo (rest.drop code.length)
    return value

def manyUpTo (parser : Parser α) : Nat → Parser (List α)
  | 0 => return []
  | limit + 1 => do
    match ← optional parser with
    | none => return []
    | some value => return value :: (← manyUpTo parser limit)

/-- Repeats a parser until it fails. It reads at least a character each time, so it cannot succeed
more often than there are characters. -/
def many (parser : Parser α) : Parser (List α) := do
  manyUpTo parser ((← rest).length + 1)

def many1 (parser : Parser α) : Parser (List α) := do
  return (← parser) :: (← many parser)

/-- Digits beyond nine are capital letters. -/
def digit? (base : Nat) (c : Char) : Option Nat :=
  if '0' ≤ c ∧ c ≤ '9' then some (c.toNat - '0'.toNat)
  else if base = 36 ∧ 'A' ≤ c ∧ c ≤ 'Z' then some (c.toNat - 'A'.toNat + 10)
  else none

/-- Numbers have 63 bits. -/
def numberLimit : Nat := 0x8000000000000000

/-- The longest run of digits. Only zero begins with the digit zero. -/
def numeral (base : Nat) : Parser Nat := do
  let rest ← rest
  let digits := rest.takeWhile fun c => (digit? base c).isSome
  if digits = [] ∨ (digits.head? = some '0' ∧ digits ≠ ['0']) then fail
  let value := (digits.filterMap (digit? base)).foldl (fun value digit => value * base + digit) 0
  if numberLimit ≤ value then fail
  advanceTo (rest.drop digits.length)
  return value

def number : Parser Nat := numeral 10

/-- A negative number is marked by a letter in front. -/
def signedNumber : Parser Int := do
  if ← eat "n" then return -(← number : Int)
  return (← number : Int)

def table : Parser Table := return (← get).table

def modifyTable (change : Table → Table) : Parser Unit :=
  modify fun reading => { reading with table := change reading.table }

def enter (entry : Entry) : Parser EntityRef := do
  let index := (← table).entries.size
  modifyTable (·.enter entry)
  return .entry index

def enterNumbered (entry : Entry) : Parser EntityRef := do
  let index := (← table).entries.size
  modifyTable (·.enterNumbered entry)
  return .entry index

def enterType (type : CompoundType) : Parser TypeRef :=
  TypeRef.ofEntity <$> enterNumbered (.type type)

def enterArgs (args : List TemplateArg) : Parser ArgsRef := do
  let index := (← table).argLists.size
  modifyTable (·.enterArgs args)
  return ⟨index⟩

def enterWidth (width : Expression) : Parser Nat := do
  let index := (← table).widths.size
  modifyTable (·.enterWidth width)
  return index

def converting (inConversion : Bool) (parser : Parser α) : Parser α := fun reading =>
  match parser { reading with inConversion } with
  | .ok value after => .ok value { after with inConversion := reading.inConversion }
  | .error refusal after => .error refusal { after with inConversion := reading.inConversion }

/-- Whether a parser succeeds here, and what would follow then. Nothing is read or entered. -/
def ahead (parser : Parser α) : Parser (Option (List Char)) := fun reading =>
  match parser reading with
  | .ok _ after => .ok (some after.rest) reading
  | .error .mismatch _ => .ok none reading
  | .error .nestedTooDeep _ => .error .nestedTooDeep reading

/-- Reads a part of the text, which must be read to its end. -/
def within (part : List Char) (parser : Parser α) : Parser α := do
  let outside ← rest
  advanceTo part
  let value ← parser
  unless (← rest).isEmpty do fail
  advanceTo outside
  return value

end Parser

end MangledNames.Symbol
