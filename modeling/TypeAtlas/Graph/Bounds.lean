import Std.Data.HashSet
import TypeAtlas.Fault
import TypeAtlas.Graph.Definition
import TypeAtlas.Metadata.Rows
import TypeAtlas.Metadata.Record

namespace TypeAtlas

/-- The field of a row that holds an index or the start of a range. -/
structure Site where
  table : Table
  index : Nat
  field : String

/-- The number of rows of a table. -/
def Rows.count (rows : Rows) : Table → Nat
  | .properties => rows.properties.size
  | .methods => rows.methods.size
  | .parameters => rows.parameters.size
  | .fields => rows.fields.size
  | .genericParameters => rows.genericParameters.size
  | .genericParameterConstraints => rows.constraints.size
  | .genericContainers => rows.genericContainers.size
  | .nestedTypes => rows.nestedTypes.size
  | .interfaces => rows.interfaces.size
  | .typeDefinitions => rows.types.size
  | .images => rows.images.size
  | .typeReferences => rows.references.size
  | .genericClasses => rows.genericClasses.size
  | .genericInsts => rows.genericInsts.size
  | .genericArguments => rows.genericArguments.size
  | .methodSpecs => rows.methodSpecs.size
  | _ => 0

namespace Bounds

/-- The index that stands for nothing. -/
def noIndex : Int := -1

/-- The fault of something that is referred to and does not exist. -/
def dangling (message : String) (table : Table) (index : Nat) (offset : Option Int) : Fault :=
  { kind := .danglingTypeReference, message, table := some table.name, index := some index
    offset }

def indexOutside (value : Int) (target : Table) (size : Nat) (site : Site) : Fault :=
  dangling
    ("Field '" ++ site.field ++ "' references " ++ target.name ++ "[" ++ toString value ++
      "] outside of " ++ toString size ++ " records")
    site.table site.index (some value)

def rangeOutside (start count : Int) (target : Table) (size : Nat) (site : Site) : Fault :=
  dangling
    ("Range '" ++ site.field ++ "' [" ++ toString start ++ ", " ++ toString (start + count) ++
      ") exceeds " ++ target.name ++ " of " ++ toString size ++ " records")
    site.table site.index (some start)

/-- Checks an index, which has to lie in its table. -/
def index (rows : Rows) (value : Int) (target : Table) (site : Site) : Except Fault Nat :=
  if 0 ≤ value ∧ value < rows.count target then .ok value.toNat
  else .error (indexOutside value target (rows.count target) site)

/-- An index that may stand for nothing. -/
def optionalIndex (rows : Rows) (value : Int) (target : Table) (site : Site) :
    Except Fault (Option Nat) :=
  if value = noIndex then .ok none else (index rows value target site).map some

/-- A range has to start and end inside its target table. A range that counts nothing may start
anywhere, and one with a negative count holds nothing. -/
def range (rows : Rows) (start count : Int) (target : Table) (site : Site) :
    Except Fault (List Nat) :=
  if count = 0 then .ok []
  else if start < 0 ∨ (rows.count target : Int) < start + count then
    .error (rangeOutside start count target (rows.count target) site)
  else .ok (List.range' start.toNat count.toNat)

theorem index_eq_ok_iff {rows : Rows} {value : Int} {target : Table} {site : Site} {n : Nat} :
    index rows value target site = .ok n ↔ value = n ∧ n < rows.count target := by
  unfold index
  split
  · next h =>
      simp only [Except.ok.injEq]
      omega
  · next h =>
      simp only [reduceCtorEq, false_iff]
      omega

theorem lt_of_mem_range {rows : Rows} {start count : Int} {target : Table} {site : Site}
    {found : List Nat} (h : range rows start count target site = .ok found) {i : Nat}
    (hi : i ∈ found) : i < rows.count target := by
  unfold range at h
  split at h
  · obtain rfl := Except.ok.inj h
    simp at hi
  · split at h
    · cases h
    · obtain rfl := Except.ok.inj h
      rw [List.mem_range'_1] at hi
      omega

end Bounds

end TypeAtlas

namespace TypeAtlas.Chain

/-- Follows a relation from a type until it ends or meets a type from which it is known to end.
The answer holds the types on the way, or the type that was met twice. A walk of more steps than
there are types meets one twice. -/
def walk (next : Nat → Option Nat) (ends : Std.HashSet Nat) :
    (fuel : Nat) → (path : List Nat) → (current : Option Nat) → Except Nat (List Nat)
  | _, path, none => .ok path
  | fuel, path, some type =>
      if ends.contains type then .ok path
      else if path.contains type then .error type
      else
        match fuel with
        | 0 => .error type
        | fuel + 1 => walk next ends fuel (type :: path) (next type)

/-- Follows a relation from each of some types. -/
def walkAll (next : Nat → Option Nat) (fuel : Nat) :
    List Nat → Std.HashSet Nat → Except Nat Unit
  | [], _ => .ok ()
  | start :: starts, ends => do
      let path ← walk next ends fuel [] (some start)
      walkAll next fuel starts (path.foldl (·.insert ·) ends)

/-- The first type that is met twice when a relation is followed from each type in turn. -/
def check (next : Nat → Option Nat) (size : Nat) : Except Nat Unit :=
  walkAll next (size + 1) (List.range size) ∅

def step (types : Array TypeDefinition) (relation : TypeDefinition → Option Nat) (index : Nat) :
    Option Nat :=
  (types[index]?).bind relation

/-- The fault of a type that a relation leads back to. -/
def cyclic (types : Array TypeDefinition) (phrase : String) (index : Nat) : Fault :=
  { kind := .cyclicTypeNesting
    message := "Type '" ++ ((types[index]?).map TypeDefinition.fullName).getD "" ++ "' " ++
      phrase ++ " itself"
    table := some (Table.name .typeDefinitions), index := some index }

/-- Checks that a relation between types comes to an end from every type. -/
def checkTypes (types : Array TypeDefinition) (relation : TypeDefinition → Option Nat)
    (phrase : String) : Except Fault Unit :=
  (check (step types relation) types.size).mapError (cyclic types phrase)

end TypeAtlas.Chain
