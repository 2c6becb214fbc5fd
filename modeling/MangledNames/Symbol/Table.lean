import MangledNames.Symbol.Syntax

/-!
The table of components that a mangled name has spelled so far, and what a name inherits from its
components: the class name that its constructors repeat, its template arguments, and whether its
return type is spelled.

An entry refers only to entries that were made before it. So following references from an entry
ends after at most as many steps as there are entries, and that many steps is what the walks below
are given.
-/

namespace MangledNames.Symbol

/-- Components in the order in which they were spelled. Not all of them may be referred to by
number: `sequence` holds the indices of those that may, in the order of their numbers. -/
structure Table where
  entries : Array Entry
  sequence : Array Nat
  argLists : Array (List TemplateArg)
  widths : Array Expression

namespace Table

def empty : Table := ⟨#[], #[], #[], #[]⟩

/-- Enters a component that has no number. -/
def enter (table : Table) (entry : Entry) : Table :=
  { table with entries := table.entries.push entry }

/-- Enters a component under the next number. -/
def enterNumbered (table : Table) (entry : Entry) : Table :=
  { table.enter entry with sequence := table.sequence.push table.entries.size }

def enterArgs (table : Table) (args : List TemplateArg) : Table :=
  { table with argLists := table.argLists.push args }

def enterWidth (table : Table) (width : Expression) : Table :=
  { table with widths := table.widths.push width }

def entryAt? (table : Table) (index : Nat) : Option Entry :=
  table.entries[index]?

def numbered? (table : Table) (number : Nat) : Option EntityRef :=
  table.sequence[number]?.map EntityRef.entry

def args (table : Table) (args : ArgsRef) : List TemplateArg :=
  (table.argLists[args.index]?).getD []

def isArray (table : Table) : TypeRef → Bool
  | .entry index =>
    match table.entryAt? index with
    | some (.type (.array _ _)) => true
    | _ => false
  | _ => false

end Table

inductive Leaf where
  | standard (entity : StandardEntity)
  | source (name : String)
  | closure (type : ClosureType)
  | unnamed (number : Option Nat)
  deriving DecidableEq, Repr

/-- Operators, constructors and destructors name no class. -/
def UnqualifiedName.leaf? (name : UnqualifiedName) : Option Leaf :=
  match name.base with
  | .operator _ => none
  | .special _ => none
  | .source name => some (.source name)
  | .internal name => some (.source name)
  | .closure type => some (.closure type)
  | .unnamed number => some (.unnamed number)

section

variable (leafOf : EntityRef → Option Leaf)

def NestedName.leafFrom? (name : NestedName) : Option Leaf :=
  match name.path with
  | .member outer name => name.leaf? <|> outer.bind leafOf
  | .instantiation whole => leafOf whole

mutual

def Name.leafFrom? : Name → Option Leaf
  | .nested name => name.leafFrom? leafOf
  | .unscoped name => name.name.leaf?
  | .instantiation template _ => leafOf template
  | .inside name => name.leafFrom?

def LocalName.leafFrom? : LocalName → Option Leaf
  | .entity _ name => name.leafFrom?
  | .stringLiteral _ => none
  | .defaultArgument _ name => name.leafFrom?

end

def Scope.leafFrom? : Scope → Option Leaf
  | .name last => last.leaf?
  | .member outer last => last.leaf? <|> leafOf outer
  | .instantiation template _ => leafOf template
  | .parameter _ => none
  | .decltype _ => none
  | .dataMember _ last => some (.source last)

def Entry.leafFrom? : Entry → Option Leaf
  | .template name => name.name.leaf?
  | .type (.classEnum _ name) => name.leafFrom? leafOf
  | .scope inner => inner.leafFrom? leafOf
  | _ => none

end

namespace Table

def leafWithin? (table : Table) : Nat → EntityRef → Option Leaf
  | _, .standard entity => entity.className?.map fun _ => .standard entity
  | 0, .entry _ => none
  | steps + 1, .entry index =>
    (table.entryAt? index).bind (Entry.leafFrom? (table.leafWithin? steps))

def leaf? (table : Table) (entity : EntityRef) : Option Leaf :=
  table.leafWithin? table.entries.size entity

def leafOfName? (table : Table) (name : Name) : Option Leaf :=
  name.leafFrom? table.leaf?

def leafOfType? (table : Table) : TypeRef → Option Leaf
  | .standard entity => table.leaf? (.standard entity)
  | .entry index => table.leaf? (.entry index)
  | .builtin _ => none

end Table

namespace Table

def argsOfScope? (table : Table) : EntityRef → Option ArgsRef
  | .entry index =>
    match table.entryAt? index with
    | some (.scope (.instantiation _ args)) => some args
    | _ => none
  | .standard _ => none

end Table

mutual

def Name.args? (table : Table) : Name → Option ArgsRef
  | .nested name =>
    match name.path with
    | .instantiation whole => table.argsOfScope? whole
    | .member _ _ => none
  | .unscoped _ => none
  | .instantiation _ args => some args
  | .inside name => name.args? table

def LocalName.args? (table : Table) : LocalName → Option ArgsRef
  | .entity _ name => name.args? table
  | .stringLiteral _ => none
  | .defaultArgument _ name => name.args? table

end

namespace Table

/-- The arguments of the template that a type names, seen through pointers and references. -/
def argsOfTypeWithin? (table : Table) : Nat → TypeRef → Option ArgsRef
  | steps + 1, .entry index =>
    match table.entryAt? index with
    | some (.type (.vendor _ args _)) => args
    | some (.type (.templateTemplate _ args)) => some args
    | some (.type (.pointer type)) => table.argsOfTypeWithin? steps type
    | some (.type (.reference _ type)) => table.argsOfTypeWithin? steps type
    | _ => none
  | _, _ => none

def argsOfType? (table : Table) (type : TypeRef) : Option ArgsRef :=
  table.argsOfTypeWithin? table.entries.size type

end Table

/-- Constructors, destructors and conversions have no return type of their own. -/
def UnqualifiedName.lacksReturnType (name : UnqualifiedName) : Bool :=
  match name.base with
  | .operator (.conversion _) => true
  | .special _ => true
  | _ => false

namespace Table

def lacksReturnTypeWithin (table : Table) : Nat → EntityRef → Bool
  | steps + 1, .entry index =>
    match table.entryAt? index with
    | some (.scope (.name name)) => name.lacksReturnType
    | some (.scope (.member _ name)) => name.lacksReturnType
    | some (.scope (.instantiation template _)) => table.lacksReturnTypeWithin steps template
    | _ => false
  | _, _ => false

/-- Whether a function of this name, which has template arguments, is written without a return
type. -/
def lacksReturnType (table : Table) : Name → Bool
  | .nested ⟨_, _, _, .instantiation whole⟩ =>
    table.lacksReturnTypeWithin table.entries.size whole
  | _ => false

end Table

end MangledNames.Symbol
