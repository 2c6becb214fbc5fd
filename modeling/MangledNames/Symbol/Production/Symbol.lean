import MangledNames.Symbol.Grammar

/-!
Productions of whole symbols: functions, data, and what a compiler derives from them.
-/

namespace MangledNames.Symbol.Production

open Symbol.Parser

variable (g : Grammar)

def mangledName : Parser MangledName := do
  if ← eat "_Z" <||> eat "__Z" then
    let encoding ← g.encoding
    return .encoding encoding (← many g.cloneSuffix)
  if ← eat "___Z" <||> eat "____Z" then
    let enclosing ← g.encoding
    expect "_block_invoke"
    if ← eat "_" <||> eat "." then
      let _ ← Parser.number
    else
      let _ ← optional Parser.number
    return .block enclosing
  if ← eat "_GLOBAL_" then
    return ← g.globals
  return .type (← g.type)

def cloneIdentifier : Parser String := do
  let rest ← rest
  let identifier := rest.takeWhile fun c => c.isAlphanum || c ∈ ['$', '_']
  if identifier = [] then fail
  advanceTo (rest.drop identifier.length)
  return String.ofList identifier

def cloneSuffix : Parser CloneSuffix := do
  expect "."
  let identifier ← g.cloneIdentifier
  return ⟨identifier, ← many (do expect "."; Parser.number)⟩

def globals : Parser MangledName := do
  unless (← anyChar) ∈ ['_', '.', '$'] do fail
  if ← eat "I_" then
    return .globals .constructors (← g.mangledName)
  expect "D_"
  return .globals .destructors (← g.mangledName)

def encoding : Parser Encoding := do
  if let some name ← optional g.name then
    if let some types ← optional g.bareFunctionType then
      return .function name types
    return .data name
  return .special (← g.specialName)

def fixedOffset : Parser CallOffset := return .fixed (← g.number)

def virtualOffset : Parser CallOffset := do
  let offset ← g.number
  expect "_"
  return .virtual offset (← g.number)

def callOffset : Parser CallOffset := do
  let offset ← if ← eat "h" then g.fixedOffset else do expect "v"; g.virtualOffset
  expect "_"
  return offset

def temporary : Parser SpecialName := do
  let name ← g.name
  if ← eat "_" then
    return .temporary name 0
  let number ← g.sequenceNumber
  expect "_"
  return .temporary name (number + 1)

def constructionVtable : Parser SpecialName := do
  let type ← g.type
  let _ ← Parser.number
  expect "_"
  return .constructionVtable type (← g.type)

/-- Cuts the text after so many bytes, where a character ends. -/
def splitBytes? : Nat → List Char → Option (List Char × List Char)
  | 0, text => some ([], text)
  | _, [] => none
  | bytes, c :: text =>
    if bytes < c.utf8Size then none
    else (splitBytes? (bytes - c.utf8Size) text).map fun (part, rest) => (c :: part, rest)

def resource : Parser SpecialName := do
  let length ← Parser.number
  if length = 0 then fail
  match splitBytes? length (← rest) with
  | none => fail
  | some (part, rest) =>
    let names ← within part (do expect "_"; many g.resourceName)
    advanceTo rest
    return .resource names

/-- A resource name ends with an escape or at the end of the text. -/
def resourceName : Parser (List Char) := do
  let rest ← rest
  let plain := rest.takeWhile (· ≠ '$')
  if plain = [] then fail
  match rest.drop plain.length with
  | '$' :: c :: rest =>
    unless c ∈ ['S', '_', '$'] do fail
    advanceTo rest
    return plain ++ ['$', c]
  | '$' :: [] => fail
  | rest =>
    advanceTo rest
    return plain

/-- The letter that tells clones apart is a single byte. -/
def transactionClone : Parser SpecialName := do
  let letter ← anyChar
  if letter.utf8Size ≠ 1 then fail
  return .transactionClone (letter ≠ 'n') (← g.encoding)

/-- The kinds of special names that two letters decide on. A thunk is written with the letter that
begins its offset. -/
def specialKind (code : List Char) : Option (Parser SpecialName) :=
  match code with
  | ['T', 'V'] => some (return .typeData .vtable (← g.type))
  | ['T', 'T'] => some (return .typeData .vtt (← g.type))
  | ['T', 'I'] => some (return .typeData .typeinfo (← g.type))
  | ['T', 'S'] => some (return .typeData .typeinfoName (← g.type))
  | ['T', 'F'] => some (return .typeData .typeinfoFunction (← g.type))
  | ['T', 'H'] => some (return .variableHelper .tlsInit (← g.name))
  | ['T', 'W'] => some (return .variableHelper .tlsWrapper (← g.name))
  | ['G', 'V'] => some (return .variableHelper .guard (← g.name))
  | ['T', 'c'] => some do
    let object ← g.callOffset
    let result ← g.callOffset
    return .covariantThunk object result (← g.encoding)
  | ['T', 'C'] => some (constructionVtable g)
  | ['G', 'R'] => some (temporary g)
  | ['G', 'r'] => some (resource g)
  | ['G', 'T'] => some (transactionClone g)
  | _ => none

def specialName : Parser SpecialName := do
  let rest ← rest
  match rest with
  | 'T' :: 'h' :: _ | 'T' :: 'v' :: _ =>
    advanceTo (rest.drop 1)
    let offset ← g.callOffset
    return .thunk offset (← g.encoding)
  | _ =>
    match specialKind g (rest.take 2) with
    | none => fail
    | some parser =>
      advanceTo (rest.drop 2)
      parser

end MangledNames.Symbol.Production
