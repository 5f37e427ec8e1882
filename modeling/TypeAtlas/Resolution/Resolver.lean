import Std.Data.HashMap
import TypeAtlas.Registration.Locate
/-!
Resolving addresses. A method takes its address from the method address table, if that has a valid
entry for it, and otherwise from the pointers of the module with the name of its own module, which
are aligned with the methods of the module in the order of their rows. Every address has to lie in
an executable segment. What fails is an issue and leaves its method without an address.
-/

namespace TypeAtlas

/-- What a resolution works on. -/
structure Resolver where
  machine : Machine
  memory : Memory
  graph : TypeGraph
  registrations : Registrations

/-- What became of an entry: nothing, if it is empty, or else an address or an issue. -/
abbrev Outcome := Option (Except Fault Int)

namespace Outcome

/-- The address that an entry has given. -/
def address? (outcome : Outcome) : Option Int := outcome.bind Except.toOption

/-- The issue with an entry. -/
def issue? (outcome : Outcome) : Option Fault :=
  match outcome with
  | some (.error fault) => some fault
  | _ => none

end Outcome

namespace Resolver

/-- The address that a pointer to code stands for. The lowest bit of one for a 32-bit ARM machine
tells the instruction set and is no part of the address. -/
def target (resolver : Resolver) (pointer : Nat) : Int :=
  if resolver.machine = .arm then ((pointer - pointer % 2 : Nat) : Int) else pointer

def notExecutable (address : Int) (table : String) (index : Nat) : Fault :=
  { kind := .addressOutOfBounds
    message := "Address " ++ Hexadecimal.ofInt address ++ " is outside of executable segments"
    table := some table, index := some index, offset := some address }

/-- The address that a pointer to code stands for, which has to be executable. -/
def follow (resolver : Resolver) (pointer : Nat) (table : String) (index : Nat) :
    Except Fault Int :=
  let address := resolver.target pointer
  if resolver.memory.space.isExecutable address then .ok address
  else .error (notExecutable address table index)

/-- The entries of the method address table that stand for no address. -/
def isSentinel (entry : Nat) : Bool :=
  entry == 0 || entry == 0xFFFFFFFFFFFFFFFF

/-- What becomes of the entry of a method in the method address table. -/
def direct (resolver : Resolver) (method : Nat) : Outcome :=
  match resolver.graph.methodAddresses[method]? with
  | none => none
  | some entry =>
      if isSentinel entry then none
      else some (resolver.follow entry "method_addresses" method)

/-- What becomes of the entries of all methods. -/
def directOutcomes (resolver : Resolver) : Array Outcome :=
  (Array.range resolver.graph.methods.size).map resolver.direct

/-- Whether a method has a valid entry of its own. -/
def isDirect (outcomes : Array Outcome) (method : Nat) : Bool :=
  (outcomes[method]?).any fun outcome => outcome.address?.isSome

def noModule (name : String) (index : Nat) : Fault :=
  { kind := .registrationNotFound
    message := "No code generation module for '" ++ name ++ "'"
    table := some "code_gen_modules", index := some index }

def notAligned (name : String) (index methods : Nat) (module : CodeGenModule) : Fault :=
  { kind := .addressResolutionAmbiguous
    message := "Module '" ++ name ++ "' has " ++ toString methods ++ " methods but " ++
      toString module.methodPointers.length ++ " method pointers"
    table := some "images", index := some index, offset := some (module.address : Int) }

/-- What becomes of a pointer that is aligned with a method. A method with an entry of its own does
not need it. -/
def aligned (resolver : Resolver) (outcomes : Array Outcome) (method pointer : Nat) : Outcome :=
  if isDirect outcomes method || pointer == 0 then none
  else some (resolver.follow pointer "methods" method)

/-- What becomes of the pointers of a module, each with its method. A module whose methods all have
entries of their own needs no pointers. -/
def moduleOutcomes (resolver : Resolver) (outcomes : Array Outcome) (index : Nat)
    (module : Module) : Except Fault (List (Nat × Outcome)) :=
  let methods := resolver.graph.methodsOf module
  if methods.all (isDirect outcomes) then .ok []
  else
    match resolver.registrations.code.bind fun code => code.module? module.name with
    | none => .error (noModule module.name index)
    | some found =>
        if found.methodPointers.length = methods.length then
          .ok ((methods.zip found.methodPointers).map fun (method, pointer) =>
            (method, resolver.aligned outcomes method pointer))
        else .error (notAligned module.name index methods.length found)

/-- What becomes of the pointers of all modules. -/
def allModuleOutcomes (resolver : Resolver) (outcomes : Array Outcome) :
    List (Except Fault (List (Nat × Outcome))) :=
  resolver.graph.modules.toList.zipIdx.map fun (module, index) =>
    resolver.moduleOutcomes outcomes index module

/-- The issues with a module and with its pointers. -/
def moduleIssues : Except Fault (List (Nat × Outcome)) → List Fault
  | .error fault => [fault]
  | .ok outcomes => outcomes.filterMap fun (_, outcome) => outcome.issue?

/-- The addresses that a module gives, each with its method. -/
def moduleAddresses : Except Fault (List (Nat × Outcome)) → List (Nat × Int)
  | .error _ => []
  | .ok outcomes =>
      outcomes.filterMap fun (method, outcome) => outcome.address?.map fun address =>
        (method, address)

/-- A table of a size that holds some values. Of several values for one row the last one stays. -/
def tableOf (size : Nat) (values : List (Nat × Int)) : Array (Option Int) :=
  values.foldl (fun table (row, value) => table.setIfInBounds row (some value))
    (Array.replicate size none)

/-- The number of rows that some values are for. Several values for one row count once. -/
def rowCount (values : List (Nat × Int)) : Nat := (Std.HashMap.ofList values).size

def unknownGeneric (index : Nat) (entry : GenericMethodEntry) : Fault :=
  { kind := .addressResolutionAmbiguous
    message := "Generic method entry references method spec " ++ toString entry.spec ++
      " and pointer " ++ toString entry.slot
    table := some "generic_method_table", index := some index }

/-- The instantiation and the pointer that a row of the table of generic methods refers to. -/
def genericParts? (graph : TypeGraph) (pointers : Array Nat) (entry : GenericMethodEntry) :
    Option (Nat × Nat) := do
  let instantiation ← graph.methodInstantiation? entry.spec
  let pointer ← if entry.slot < 0 then none else pointers[entry.slot.toNat]?
  return (instantiation, pointer)

/-- The addresses of generic methods, by instantiation, and the issues with their rows. The first
valid row of an instantiation counts. -/
def genericFrom (resolver : Resolver) (pointers : Array Nat) (found : List (Nat × Int))
    (index : Nat) : List GenericMethodEntry → List (Nat × Int) × List Fault
  | [] => (found, [])
  | entry :: entries =>
      match genericParts? resolver.graph pointers entry with
      | none =>
          let (addresses, issues) := genericFrom resolver pointers found (index + 1) entries
          (addresses, unknownGeneric index entry :: issues)
      | some (instantiation, pointer) =>
          if pointer == 0 || (found.lookup instantiation).isSome then
            genericFrom resolver pointers found (index + 1) entries
          else
            match resolver.follow pointer "generic_method_table" index with
            | .ok address =>
                genericFrom resolver pointers ((instantiation, address) :: found) (index + 1)
                  entries
            | .error issue =>
                let (addresses, issues) := genericFrom resolver pointers found (index + 1) entries
                (addresses, issue :: issues)

/-- The addresses of generic methods, by instantiation, and the issues with them. -/
def generics (resolver : Resolver) : List (Nat × Int) × List Fault :=
  match resolver.registrations.code, resolver.registrations.metadata with
  | some code, some metadata =>
      resolver.genericFrom code.genericMethodPointers [] 0 metadata.genericMethodTable
  | _, _ => ([], [])

def unreadableOffsets (index pointer : Nat) (fault : Fault) : Fault :=
  { kind := .addressOutOfBounds, message := fault.message, table := some "field_offsets"
    index := some index, offset := some (pointer : Int) }

/-- The offsets of the fields of a type, each with its field. The layout of a generic type depends
on its arguments, so its fields have none. -/
def typeOffsets (resolver : Resolver) (pointers : Array Nat) (index : Nat)
    (type : TypeDefinition) : Except Fault (List (Nat × Int)) :=
  let pointer := (pointers[index]?).getD 0
  if type.isGeneric || type.fields.isEmpty || pointer == 0 then .ok []
  else
    match resolver.memory.readInts pointer type.fields.length "field_offsets" with
    | .ok offsets => .ok (type.fields.zip offsets)
    | .error fault => .error (unreadableOffsets index pointer fault)

/-- The offsets of the fields of all types. -/
def allTypeOffsets (resolver : Resolver) : List (Except Fault (List (Nat × Int))) :=
  match resolver.registrations.metadata with
  | none => []
  | some metadata =>
      resolver.graph.types.toList.zipIdx.map fun (type, index) =>
        resolver.typeOffsets metadata.fieldOffsets index type

end Resolver

end TypeAtlas
