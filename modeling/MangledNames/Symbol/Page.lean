import MangledNames.Symbol.Table

/-!
# The page on which a name is written

Declarators are written from the inside out: a pointer to a function is a star between the return
type and the parameters. So a part of a type that goes around what is written next waits in
`pending` until the inner part calls for it, and if no inner part does, it is written by the node
that put it there. Parts are told apart by the entry of the table they belong to: two equal types
at different entries are different parts.

A template parameter means an argument of the innermost list in `frames` that is long enough. While
an argument of a list is being written, the list does not resolve that argument or a later one.
-/

namespace MangledNames.Symbol

/-- A part of a declarator that waits to be written around another one. -/
inductive Part where
  /-- The parameters of the function that a symbol names. -/
  | symbol (name : Name) (types : List TypeRef)
  /-- What the type at an entry puts around its inner type. -/
  | type (index : Nat) (type : CompoundType)
  /-- The parameters of the function type at an entry. -/
  | parameters (index : Nat) (types : List TypeRef)

namespace Part

/-- Only one symbol can wait: a symbol inside another one starts with nothing waiting. -/
def isSame : Part → Part → Bool
  | symbol _ _, symbol _ _ => true
  | type index _, type other _ => index = other
  | parameters index _, parameters other _ => index = other
  | _, _ => false

def isQualified : Part → Bool
  | type _ (.qualified _ _) => true
  | _ => false

/-- Around a function's parameters such a part stands in parentheses. -/
def needsParentheses : Part → Bool
  | type _ (.qualified _ _) => true
  | type _ (.memberPointer _ _) => true
  | type _ (.pointer _) => true
  | type _ (.reference _ _) => true
  | _ => false

/-- The parentheses around such a part stand apart from the return type. -/
def needsSpace : Part → Bool
  | type _ (.qualified _ _) => true
  | type _ (.memberPointer _ _) => true
  | _ => false

/-- The qualifiers of a function follow its parameters. -/
def followsParameters : Part → Bool
  | type _ (.function inner) => inner.qualifiers ≠ .none
  | _ => false

end Part

inductive Binding where
  | leaf (leaf : Leaf)
  | args (args : ArgsRef)
  deriving DecidableEq, Repr

/-- What encloses the text being written, and the argument at which it is being written. -/
structure Frame where
  binding : Binding
  position : Option (Nat × ArgsRef)
  deriving DecidableEq, Repr

structure Surroundings where
  table : Table
  returnTypes : Bool
  literalTypes : Bool
  parameters : Bool
  frames : List Frame

structure Page where
  /-- The characters written so far, the last one first. -/
  written : List Char
  pending : List Part
  /-- The identifier written last. -/
  sourceName : Option String
  inClosure : Bool
  inPack : Bool
  explicitObject : Bool

def Page.blank : Page := ⟨[], [], none, false, false, false⟩

/-- Writing fails if a name refers to what its surroundings do not have. -/
abbrev Writer (α : Type) := ReaderT Surroundings (StateT Page Option) α

namespace Writer

def fail {α : Type} : Writer α := fun _ _ => none

def write (text : String) : Writer Unit :=
  modify fun page => { page with written := text.toList.reverseAux page.written }

def writeNat (number : Nat) : Writer Unit := write (toString number)

def writeInt (number : Int) : Writer Unit := write (toString number)

def lastChar : Writer (Option Char) := return (← get).written.head?

def space : Writer Unit := do
  if (← lastChar) ≠ some ' ' then write " "

def separated (separator : String) : List (Writer Unit) → Writer Unit
  | [] => return ()
  | [item] => item
  | item :: items => do
    item
    write separator
    separated separator items

def table : Writer Table := return (← read).table

/-- Writes a part of a name in which parameters are never left out. -/
def withParameters (writer : Writer Unit) : Writer Unit :=
  withReader (fun around => { around with parameters := true }) writer

def withBinding (binding : Binding) (writer : Writer Unit) : Writer Unit :=
  withReader (fun around => { around with frames := ⟨binding, none⟩ :: around.frames }) writer

def withArgs (args : Option ArgsRef) (writer : Writer Unit) : Writer Unit :=
  match args with
  | none => writer
  | some args => withBinding (.args args) writer

def withLeaf (leaf : Option Leaf) (writer : Writer Unit) : Writer Unit :=
  match leaf with
  | none => writer
  | some leaf => withBinding (.leaf leaf) writer

def withoutFrames (writer : Writer Unit) : Writer Unit :=
  withReader (fun around => { around with frames := [] }) writer

def Frame.markTop (index : Nat) (args : ArgsRef) : List Frame → List Frame
  | [] => []
  | frame :: frames => { frame with position := some (index, args) } :: frames

def atArgument (index : Nat) (args : ArgsRef) (writer : Writer Unit) : Writer Unit :=
  withReader (fun around => { around with frames := Frame.markTop index args around.frames }) writer

def leafOf? : List Frame → Option Leaf
  | [] => none
  | ⟨.leaf leaf, _⟩ :: _ => some leaf
  | ⟨.args _, _⟩ :: frames => leafOf? frames

/-- The argument that a template parameter means. -/
def argumentOf? (table : Table) (parameter : Nat) : List Frame → Option TemplateArg
  | [] => none
  | ⟨.leaf _, _⟩ :: frames => argumentOf? table parameter frames
  | ⟨.args args, position⟩ :: frames =>
    match (table.args args)[parameter]? with
    | none => argumentOf? table parameter frames
    | some argument =>
      if position.any fun (index, list) => list = args ∧ index ≤ parameter then none
      else some argument

def wait (part : Part) : Writer Unit :=
  modify fun page => { page with pending := part :: page.pending }

def takeWaiting : Writer (Option Part) := do
  match (← get).pending with
  | [] => return none
  | part :: parts =>
    modify fun page => { page with pending := parts }
    return some part

/-- Takes the part back if no inner part has called for it. -/
def takeBack (part : Part) : Writer Bool := do
  match (← get).pending with
  | [] => return false
  | top :: parts =>
    if top.isSame part then
      modify fun page => { page with pending := parts }
      return true
    return false

/-- Writes a part of a name that parts waiting outside are not written around. -/
def enclosed (writer : Writer Unit) : Writer Unit := do
  let outside := (← get).pending
  modify fun page => { page with pending := [] }
  writer
  modify fun page => { page with pending := outside }

end Writer

end MangledNames.Symbol
