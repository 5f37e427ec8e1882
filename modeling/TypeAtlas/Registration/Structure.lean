import TypeAtlas.Image.Memory
import TypeAtlas.Metadata.Layout

namespace TypeAtlas

/-- The slots of a structure, each with its name. -/
abbrev Slots := List (String × Nat)

namespace Slots

/-- The value of the slot with a name. -/
def value (slots : Slots) (name : String) : Nat := (slots.lookup name).getD 0

/-- How far the slot with a name is from the start of its structure. -/
def distance (names : List String) (name : String) (width : PointerWidth) : Nat :=
  names.idxOf name * width.bytes

def read (memory : Memory) (names : List String) (address : Int) (what : String) :
    Except Fault Slots :=
  (memory.readPointers address names.length what).map names.zip

end Slots

/-- What an image knows of a module: its name and the pointers of its methods. -/
structure CodeGenModule where
  address : Nat
  name : String
  methodPointers : List Nat
  deriving DecidableEq

namespace CodeGenModule

def unreadable (index : Nat) (message : String) (offset : Option Int) : Fault :=
  { kind := .addressOutOfBounds, message, table := some "code_gen_modules", index := some index
    offset }

/-- The parts of the module at an address: its slots, its name if that ends, and its pointers. -/
def parts (memory : Memory) (release : Release) (address : Nat) :
    Except Fault (Slots × Option String × List Nat) := do
  let slots ← Slots.read memory release.codeGenModuleSlots address "code_gen_module"
  let name ← memory.readText (slots.value "module_name") "module_name"
  let pointers ← memory.readPointers (slots.value "method_pointers")
    (slots.value "method_pointer_count") "method_pointers"
  return (slots, name, pointers)

def read (memory : Memory) (release : Release) (index address : Nat) :
    Except Fault CodeGenModule :=
  match parts memory release address with
  | .error fault => .error (unreadable index fault.message fault.offset)
  | .ok (slots, none, _) =>
      .error (unreadable index "Name of code generation module is not terminated"
        (some (slots.value "module_name" : Nat)))
  | .ok (_, some name, methodPointers) => .ok { address, name, methodPointers }

/-- Puts a module into a list. One with the same name gives up its place. -/
def put (module : CodeGenModule) : List CodeGenModule → List CodeGenModule
  | [] => [module]
  | other :: rest =>
      if other.name = module.name then module :: rest else other :: put module rest

/-- The modules that could be read, one for each name. -/
def readable (results : List (Except Fault CodeGenModule)) : List CodeGenModule :=
  (results.filterMap Except.toOption).foldl (fun modules module => put module modules) []

def faults (results : List (Except Fault CodeGenModule)) : List Fault :=
  results.filterMap fun result =>
    match result with
    | .error fault => some fault
    | .ok _ => none

end CodeGenModule

/-- The structure that leads to the code of methods. -/
structure CodeRegistration where
  address : Int
  slots : Slots
  modules : List CodeGenModule
  genericMethodPointers : Array Nat
  deriving DecidableEq

namespace CodeRegistration

/-- The slots of a code registration, and the addresses of its modules. -/
def directory (memory : Memory) (release : Release) (address : Int) :
    Except Fault (Slots × List Nat) := do
  let slots ← Slots.read memory release.codeRegistrationSlots address "code_registration"
  let addresses ← memory.readPointers (slots.value "code_gen_modules")
    (slots.value "code_gen_modules_count") "code_gen_modules"
  return (slots, addresses)

/-- The structure at an address, and the faults of modules that cannot be read. Those faults are
kept even if the structure turns out to be unreadable. -/
def read (memory : Memory) (release : Release) (address : Int) :
    Except Fault CodeRegistration × List Fault :=
  match directory memory release address with
  | .error fault => (.error fault, [])
  | .ok (slots, addresses) =>
      let results := addresses.zipIdx.map fun (module, index) =>
        CodeGenModule.read memory release index module
      let pointers := memory.readPointers (slots.value "generic_method_pointers")
        (slots.value "generic_method_pointers_count") "generic_method_pointers"
      (pointers.map fun pointers =>
          { address, slots, modules := CodeGenModule.readable results
            genericMethodPointers := pointers.toArray },
        CodeGenModule.faults results)

/-- The module with a name. -/
def module? (registration : CodeRegistration) (name : String) : Option CodeGenModule :=
  registration.modules.find? fun module => module.name == name

end CodeRegistration

/-- A row of the table of generic methods: a method spec and the slot of its pointer. -/
structure GenericMethodEntry where
  spec : Int
  slot : Int
  /-- The values of all fields of the row. -/
  values : Record
  deriving DecidableEq

def GenericMethodEntry.ofRecord (fields : List Field) (record : Record) : GenericMethodEntry where
  spec := record.value fields "generic_method_index"
  slot := record.value fields "method_index"
  values := record

/-- The structure that leads to generic methods and to the layout of types. -/
structure MetadataRegistration where
  address : Int
  slots : Slots
  genericMethodTable : List GenericMethodEntry
  /-- The address of the field offsets of each type; zero stands for none. -/
  fieldOffsets : Array Nat
  deriving DecidableEq

namespace MetadataRegistration

/-- Reads the rows of a table of generic methods. -/
def readGenericMethods (memory : Memory) (fields : List Field) (address count : Nat) :
    Except Fault (List GenericMethodEntry) :=
  if count = 0 then .ok []
  else
    (memory.readBytes address (count * Record.width fields : Nat) "generic_method_table").map
      fun data =>
        (Record.readAll fields data 0 count).toList.map (GenericMethodEntry.ofRecord fields)

def read (memory : Memory) (release : Release) (address : Int) :
    Except Fault MetadataRegistration := do
  let slots ← Slots.read memory release.metadataRegistrationSlots address "metadata_registration"
  let genericMethodTable ← readGenericMethods memory release.genericMethodFields
    (slots.value "generic_method_table") (slots.value "generic_method_table_count")
  let fieldOffsets ← memory.readPointers (slots.value "field_offsets")
    (slots.value "field_offsets_count") "field_offsets"
  return { address, slots, genericMethodTable, fieldOffsets := fieldOffsets.toArray }

end MetadataRegistration

end TypeAtlas
