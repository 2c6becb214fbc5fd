import MangledNames.Symbol.Wording

/-!
# The wording of whole symbols
-/

namespace MangledNames.Symbol.Wording

open Writer

variable (w : Wording)

def writeMangledName : MangledName → Writer Unit
  | .encoding encoding suffixes => do
    w.encoding encoding
    if (← read).parameters then suffixes.forM w.cloneSuffix
  | .block enclosing => do
    write "invocation function for block in "
    w.encoding enclosing
  | .globals routine name => w.globals routine name
  | .type type => w.typeRef type

def writeCloneIdentifier (identifier : String) : Writer Unit := do
  modify fun page => { page with sourceName := some identifier }
  write identifier

def writeCloneSuffix (suffix : CloneSuffix) : Writer Unit := do
  write " [clone ."
  w.cloneIdentifier suffix.identifier
  suffix.numbers.forM fun number => do
    write "."
    writeNat number
  write "]"

def routineHeading : GlobalRoutine → String
  | .constructors => "global constructors keyed to "
  | .destructors => "global destructors keyed to "

def writeGlobals (routine : GlobalRoutine) (name : MangledName) : Writer Unit :=
  enclosed <| withParameters do
    write (routineHeading routine)
    w.mangledName name

/-- A function template is told from other functions by its return type, so only the name of an
instance is written with one. -/
def writesReturnType (around : Surroundings) (name : Name) : Bool :=
  around.returnTypes && (name.args? around.table).isSome && !around.table.lacksReturnType name

def writeFunction (name : Name) (types : List TypeRef) : Writer Unit := do
  let around ← read
  if writesReturnType around name then
    (types.take 1).forM w.typeRef
    write " "
  if around.parameters then
    w.around (.symbol name types) (w.name name)
  else
    w.name name

def writeEncoding : Encoding → Writer Unit
  | .function name types => enclosed do
    withLeaf ((← table).leafOfName? name) do
      withArgs (name.args? (← table)) (w.writeFunction name types)
  | .data name => enclosed (w.name name)
  | .special name => enclosed (w.specialName name)

/-- What is written before and after the type. -/
def typeDataHeading : TypeData → String × String
  | .vtable => ("\x7bvtable(", ")\x7d")
  | .vtt => ("\x7bvtt(", ")\x7d")
  | .typeinfo => ("typeinfo for ", "")
  | .typeinfoName => ("typeinfo name for ", "")
  | .typeinfoFunction => ("typeinfo fn for ", "")

def helperHeading : VariableHelper → String
  | .tlsInit => "TLS init function for "
  | .tlsWrapper => "TLS wrapper function for "
  | .guard => "guard variable for "

def writeCallOffset (offset : CallOffset) : Writer Unit := do
  write "\x7b"
  w.offset offset
  write "\x7d"

def writeOffset : CallOffset → Writer Unit
  | .fixed offset => do
    write "offset("
    writeInt offset
    write ")"
  | .virtual offset vcallOffset => do
    write "virtual offset("
    writeInt offset
    write ", "
    writeInt vcallOffset
    write ")"

def writeThunk (offsets : List CallOffset) (target : Encoding) : Writer Unit := do
  write "\x7bvirtual override thunk("
  offsets.forM fun offset => do
    w.callOffset offset
    write ", "
  w.encoding target
  write ")\x7d"

def cloneHeading (transactional : Bool) : String :=
  if transactional then "transaction clone for " else "non-transaction clone for "

def writeSpecialName : SpecialName → Writer Unit
  | .typeData data type => do
    write (typeDataHeading data).1
    w.typeRef type
    write (typeDataHeading data).2
  | .variableHelper helper name => do
    write (helperHeading helper)
    w.name name
  | .thunk offset target => w.writeThunk [offset] target
  | .covariantThunk object result target => w.writeThunk [object, result] target
  | .constructionVtable type base => do
    write "construction vtable for "
    w.typeRef type
    write "-in-"
    w.typeRef base
  | .temporary name number => do
    write "reference temporary #"
    writeNat number
    write " for "
    w.name name
  | .resource names => do
    write "java resource "
    names.forM w.resourceName
  | .transactionClone transactional target => do
    write (cloneHeading transactional)
    w.encoding target

def byteText (byte : UInt8) : Char := Char.ofNat byte.toNat

/-- Escapes stand for a slash, a point and the dollar sign. Every byte of other text is written as
the character of its value. -/
def resourceText : List Char → List Char
  | '$' :: 'S' :: text => '/' :: resourceText text
  | '$' :: '_' :: text => '.' :: resourceText text
  | '$' :: '$' :: text => '$' :: resourceText text
  | c :: text => (String.utf8EncodeChar c).map byteText ++ resourceText text
  | [] => []

def writeResourceName (name : List Char) : Writer Unit := write (String.ofList (resourceText name))

end MangledNames.Symbol.Wording
