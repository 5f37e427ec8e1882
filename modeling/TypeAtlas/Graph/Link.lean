import TypeAtlas.Graph.Bounds
import TypeAtlas.Graph.Interned
import TypeAtlas.Graph.Reference
/-!
Linking type references: each row of the type references that a definition uses becomes an
interned reference. Chains of arrays and pointers are followed row by row; only the arguments of
generic instances nest. What has been linked once is remembered by row.

The depth of nesting is bounded: `room` counts how many more generic instances may be open, and
`path` holds the rows of those that are.
-/

namespace TypeAtlas

/-- What has been linked so far: interned references and instantiations, with the reference of
each row and the argument references of each argument list that have been linked. -/
structure Links where
  references : Interned TypeReference := .empty
  instantiations : Interned Instantiation := .empty
  linked : Std.HashMap Nat Nat := ∅
  arguments : Std.HashMap Nat (List Nat) := ∅

/-- A computation that links references and may end in a fault. -/
abbrev Link (α : Type) : Type := StateT Links (Except Fault) α

namespace Link

/-- The most generic instances that may be nested in each other. -/
def mostNesting : Nat := 100

def selfReference (row : Nat) : Fault :=
  Bounds.dangling "Type reference refers to itself" .typeReferences row none

def tooDeep (row : Nat) : Fault :=
  Bounds.dangling
    ("Type reference nests more than " ++ toString mostNesting ++ " generic instances")
    .typeReferences row none

/-- The row of a type reference; a row past the end of the table counts as a plain one. -/
def row (rows : Rows) (index : Nat) : ReferenceRow :=
  (rows.references[index]?).getD ⟨0, 0, 0, 0⟩

/-- The number of a reference, which is a new one if the reference is. -/
def internReference (reference : TypeReference) : Link Nat :=
  modifyGet fun links =>
    let (number, references) := links.references.intern reference
    (number, { links with references })

/-- The number of an instantiation, which is a new one if the instantiation is. -/
def internInstantiation (instantiation : Instantiation) : Link Nat :=
  modifyGet fun links =>
    let (number, instantiations) := links.instantiations.intern instantiation
    (number, { links with instantiations })

/-- Remembers the number of the reference that a row has become. -/
def remember (index number : Nat) : Link Unit :=
  modify fun links => { links with linked := links.linked.insert index number }

/-- Interns the reference that a row makes with a target, and remembers it. -/
def linkRow (rows : Rows) (index : Nat) (target : Target) : Link Nat := do
  let row := row rows index
  let number ← internReference ⟨row.kind, target, row.byref, row.rank⟩
  remember index number
  return number

/-- The arrays and pointers that lead from a row to the first row that has been linked or is none
itself, innermost first, and that row. A chain that has met as many rows as there are goes on to
one that it has met. -/
def elementChain (rows : Rows) (linked : Std.HashMap Nat Nat) (path : List Nat) :
    (fuel : Nat) → (chain : List Nat) → (current : Nat) → Except Fault (List Nat × Nat)
  | 0, _, current => .error (selfReference current)
  | fuel + 1, chain, current =>
      if linked.contains current then .ok (chain, current)
      else if path.contains current || chain.contains current then .error (selfReference current)
      else if Kind.role (row rows current).kind ≠ .element then .ok (chain, current)
      else do
        let next ← Bounds.index rows (row rows current).data .typeReferences
          ⟨.typeReferences, current, "data"⟩
        elementChain rows linked path fuel (current :: chain) next

/-- Links the rows of a chain from the innermost on, each to the reference of the row before. -/
def linkChain (rows : Rows) : List Nat → Nat → Link Nat
  | [], number => pure number
  | index :: chain, number => do
      let outer ← linkRow rows index (.element number)
      linkChain rows chain outer

/-- The references of an argument list, by its index. The index -1 stands for no arguments. -/
def linkArguments (rows : Rows) (next : Int → Site → Link Nat) (index : Int) (table : Table)
    (user : Nat) : Link (List Nat) := do
  if index = Bounds.noIndex then return []
  let inst ← Bounds.index rows index .genericInsts ⟨table, user, "inst_index"⟩
  match (← get).arguments[inst]? with
  | some numbers => return numbers
  | none =>
      let row := (rows.genericInsts[inst]?).getD ⟨0, 0⟩
      let range ← Bounds.range rows row.argumentStart row.argumentCount .genericArguments
        ⟨.genericInsts, inst, "arguments"⟩
      let numbers ← range.mapM fun argument =>
        next ((rows.genericArguments[argument]?).getD Bounds.noIndex)
          ⟨.genericArguments, argument, "value"⟩
      modify fun links => { links with arguments := links.arguments.insert inst numbers }
      return numbers

/-- The instantiation of a generic class, which a row of the type references uses. -/
def linkClass (rows : Rows) (next : Int → Site → Link Nat) (index : Int) (user : Nat) :
    Link Nat := do
  let genericClass ← Bounds.index rows index .genericClasses ⟨.typeReferences, user, "data"⟩
  let row := (rows.genericClasses[genericClass]?).getD ⟨0, 0⟩
  let definition ← Bounds.index rows row.definition .typeDefinitions
    ⟨.genericClasses, genericClass, "type_definition_index"⟩
  let arguments ← linkArguments rows next row.arguments .genericClasses genericClass
  internInstantiation ⟨definition, false, [], arguments⟩

/-- What a row that is no array or pointer refers to. -/
def leafTarget (rows : Rows) (next : Int → Site → Link Nat) (index : Nat) : Link Target :=
  let row := row rows index
  let site : Site := ⟨.typeReferences, index, "data"⟩
  match Kind.role row.kind with
  | .definition => return .definition (← Bounds.index rows row.data .typeDefinitions site)
  | .parameter => return .parameter (← Bounds.index rows row.data .genericParameters site)
  | .instantiation => return .instantiation (← linkClass rows next row.data index)
  | .element | .plain => return .nothing

/-- Links a row, given how a row at the end of its chain is linked. -/
def linkWith (rows : Rows) (path : List Nat) (leaf : Nat → Link Nat) (index : Int) (site : Site) :
    Link Nat := do
  let first ← Bounds.index rows index .typeReferences site
  let (chain, last) ←
    elementChain rows (← get).linked path (rows.references.size + 1) [] first
  match (← get).linked[last]? with
  | some number => linkChain rows chain number
  | none => linkChain rows chain (← leaf last)

/-- The reference of a row, with room for some more nested generic instances. -/
def linkReference (rows : Rows) : (room : Nat) → (path : List Nat) → Int → Site → Link Nat
  | 0, path => linkWith rows path fun last => throw (tooDeep last)
  | room + 1, path =>
      linkWith rows path fun last => do
        let target ← leafTarget rows (linkReference rows room (last :: path)) last
        linkRow rows last target

/-- The number of the reference that a row becomes, whose index has to lie in the table. -/
def reference (rows : Rows) (index : Int) (site : Site) : Link Nat :=
  linkReference rows (mostNesting + 1) [] index site

/-- The references of an argument list that a method spec uses. -/
def argumentList (rows : Rows) (index : Int) (table : Table) (user : Nat) : Link (List Nat) :=
  linkArguments rows (reference rows) index table user

end Link

end TypeAtlas
