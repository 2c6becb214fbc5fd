import MangledNames.Symbol.Wording

/-!
# The wording of expressions
-/

namespace MangledNames.Symbol.Wording

open Writer

variable (w : Wording)

/-- An operand stands in parentheses, unless it is a function parameter or a symbol. -/
def operand (operand : Expression) : Writer Unit :=
  match operand with
  | .functionParam _ => w.expression operand
  | .primary (.external _) => w.expression operand
  | _ => do
    write "("
    w.expression operand
    write ")"

def expressions (items : List Expression) : Writer Unit :=
  separated ", " (items.map w.expression)

def writeUnary (operator : OperatorName) (inner : Expression) : Writer Unit := do
  match operator with
  | .simple ⟨_, _, .step⟩ =>
    w.operand inner
    w.operatorName operator
  | _ =>
    w.operatorName operator
    w.operand inner

/-- A greater sign would close the argument list that the expression stands in, so it stands in
parentheses. -/
def writeBinary (operator : OperatorName) (left right : Expression) : Writer Unit := do
  match operator with
  | .simple ⟨_, _, .greater⟩ =>
    write "(("
    w.expression left
    write ")>("
    w.expression right
    write "))"
  | _ =>
    w.operand left
    w.operatorName operator
    w.operand right

def writeTernary (operator : OperatorName) (first second third : Expression) : Writer Unit := do
  match operator with
  | .simple ⟨_, _, .conditional⟩ =>
    w.operand first
    write "?"
    w.operand second
    write " : "
    w.operand third
  | _ =>
    w.operatorName operator
    write "("
    w.expressions [first, second, third]
    write ")"

def allocationKeyword (keyword : String) (isGlobal isArray : Bool) : String :=
  (if isGlobal then "::" else "") ++ keyword ++ if isArray then "[] " else " "

def writeNew (isGlobal isArray : Bool) (placement : List Expression) (type : TypeRef)
    (initial : Option (List Expression)) : Writer Unit := do
  write (allocationKeyword "new" isGlobal isArray)
  write "("
  w.expressions placement
  write ") "
  w.typeRef type
  if let some initial := initial then w.initializer initial

def writeInitializer (items : List Expression) : Writer Unit := do
  write "("
  w.expressions items
  write ")"

def writeMemberName (name : Name) : Writer Unit := do
  if (name.args? (← table)).isSome then
    write "("
    w.name name
    write ")"
  else
    w.name name

def writeSizeofPack (pack : Writer Unit) : Writer Unit := do
  write "sizeof...("
  pack
  write ")"

def writeSubobject (type : TypeRef) (object : Expression) (offset : Int) : Writer Unit := do
  w.expression object
  write ".<"
  w.typeRef type
  write " at offset "
  writeInt offset
  write ">"

def writeFunctionParam : FunctionParam → Writer Unit
  | .this => write "this"
  | .place index => do
    write "\x7bparm#"
    writeNat (index + 1)
    write "\x7d"

def writeExpression : Expression → Writer Unit
  | .unary operator inner => w.writeUnary operator inner
  | .binary operator left right => w.writeBinary operator left right
  | .ternary operator first second third => w.writeTernary operator first second third
  | .stepBefore sign inner => do
    write sign
    w.expression inner
  | .call function args => do
    w.operand function
    write "("
    w.expressions args
    write ")"
  | .convert type inner => do
    write "("
    w.typeRef type
    write ")("
    w.expression inner
    write ")"
  | .convertMany type items => do
    w.typeRef type
    write "("
    w.expressions items
    write ")"
  | .braced type elements => do
    w.typeRef type
    write "\x7b"
    w.expressions elements
    write "\x7d"
  | .bracedList element => do
    write "\x7b"
    w.expression element
    write "\x7d"
  | .new isGlobal isArray placement type initial =>
    w.writeNew isGlobal isArray placement type initial
  | .delete isGlobal isArray inner => do
    write (allocationKeyword "delete" isGlobal isArray)
    w.expression inner
  | .cast keyword type inner => do
    write keyword
    write "<"
    w.typeRef type
    write ">("
    w.expression inner
    write ")"
  | .typeQuery keyword type => do
    write keyword
    write " ("
    w.typeRef type
    write ")"
  | .valueQuery keyword inner => do
    write keyword
    write " ("
    w.expression inner
    write ")"
  | .templateParam index => w.templateParam index
  | .functionParam param => w.functionParam param
  | .dot object member => do
    w.operand object
    write "."
    w.memberName member
  | .arrow object member => do
    w.expression object
    write "->"
    w.memberName member
  | .dotStar object member => do
    w.expression object
    write ".*"
    w.expression member
  | .sizeofTemplatePack index => writeSizeofPack (w.templateParam index)
  | .sizeofFunctionPack param => writeSizeofPack (w.functionParam param)
  | .sizeofArgs args => writeSizeofPack (separated ", " (args.map w.templateArg))
  | .subobject type object offset => w.subobject type object offset
  | .packExpansion inner => do
    w.operand inner
    write "..."
  | .throw inner => do
    write "throw "
    w.expression inner
  | .rethrow => write "throw"
  | .unresolved name => w.unresolvedName name
  | .primary expression => w.primary expression

def writeLiteralType (type : TypeRef) : Writer Unit := do
  if (← read).literalTypes then
    write "("
    w.typeRef type
    write ")"

/-- A letter in front marks a negative value. -/
def signed : List Char → String × String
  | 'n' :: digits => ("-", String.ofList digits)
  | digits => ("", String.ofList digits)

def writeNumber (value : List Char) : Writer Unit := do
  write (signed value).1
  write (signed value).2

def writeBoolean (value : List Char) : Writer Unit :=
  match value with
  | ['0'] => write "false"
  | ['1'] => write "true"
  | _ => do
    write "(bool)"
    writeNumber value

def writeLiteral (type : TypeRef) (value : List Char) : Writer Unit :=
  match type with
  | .builtin (.fundamental fundamental) =>
    match fundamental.literal with
    | .boolean => writeBoolean value
    | .null => write "nullptr"
    | .integer => writeNumber value
    | .floating => do
      w.writeLiteralType type
      write (signed value).1
      write "["
      write (signed value).2
      write "]"
    | .cast => do
      w.writeLiteralType type
      writeNumber value
  | _ => do
    w.writeLiteralType type
    writeNumber value

def writePrimary : Primary → Writer Unit
  | .literal type value => w.writeLiteral type value
  | .external name => withParameters (w.mangledName name)

def writeUnresolvedName (name : UnresolvedName) : Writer Unit := do
  if name.isGlobal then write "::"
  separated "::" ((name.type.toList.map w.entityRef) ++ (name.levels.map w.qualifierLevel) ++
    [w.unresolvedBase name.base])

def writeSimpleId (id : SimpleId) : Writer Unit := do
  w.sourceName id.name
  if let some args := id.args then w.templateArgs args

def writeUnresolvedBase : UnresolvedBase → Writer Unit
  | .simple id => w.simpleId id
  | .operator operator args => do
    w.operatorName operator
    if let some args := args then w.templateArgs args
  | .destructor name => do
    write "~"
    w.destructorName name

def writeDestructorName : DestructorName → Writer Unit
  | .type type => w.entityRef type
  | .simple id => w.simpleId id

def writeUnresolvedType : UnresolvedType → Writer Unit
  | .parameter index none => w.templateParam index
  | .parameter index (some args) => withBinding (.args args) do
    w.templateParam index
    w.templateArgs args
  | .decltype expression => w.decltype expression

end MangledNames.Symbol.Wording
