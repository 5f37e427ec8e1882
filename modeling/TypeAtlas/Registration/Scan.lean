import TypeAtlas.Graph.TypeGraph
import TypeAtlas.Registration.Structure
/-!
Scanning an image for its registration structures. The code registration is found backwards: the
name of a module is pointed to by a module structure, which is pointed to by an array of modules,
which is pointed to by the registration. The metadata registration is found by its counts of types.
-/

namespace TypeAtlas.Scan

/-- Whether the structure at an address starts with a pointer to one of some names. -/
def leadsToName (memory : Memory) (release : Release) (names : List String) (address : Int) :
    Bool :=
  let slot := Slots.distance release.codeGenModuleSlots "module_name" memory.width
  let name := (memory.readPointer (address + slot) "pointer").bind fun text =>
    memory.readText text "string"
  match name with
  | .ok (some name) => names.contains name
  | _ => false

/-- The first slot of an array of modules that reaches up to a slot, at most `count` slots back. -/
def arrayStart (memory : Memory) (release : Release) (names : List String) (slot : Int) :
    (count : Nat) → Int
  | 0 => slot
  | count + 1 =>
      let before := slot - memory.width.bytes
      match memory.readPointer before "pointer" with
      | .ok module =>
          if leadsToName memory release names module then
            arrayStart memory release names before count
          else slot
      | .error _ => slot

/-- The names of the modules of a graph. -/
def moduleNames (graph : TypeGraph) : List String :=
  graph.modules.toList.map Module.name

/-- The bytes of a name and the zero byte after it. -/
def terminated (name : String) : List UInt8 := name.toUTF8.toList ++ [0]

/-- The starts of the arrays of modules that a name leads to. -/
def arraysOf (memory : Memory) (graph : TypeGraph) (name : String) : Except Fault (List Int) :=
  (memory.findBytes (terminated name)).flatMapM fun text => do
    let structures ← memory.findPointer text
    structures.flatMapM fun module => do
      let slots ← memory.findPointer module
      return slots.map fun slot =>
        arrayStart memory graph.release (moduleNames graph) slot (graph.modules.size - 1)

/-- The starts of the arrays of modules, in the order in which the names of the modules lead to
them. -/
def moduleArrays (memory : Memory) (graph : TypeGraph) : Except Fault (List Int) :=
  ((moduleNames graph).flatMapM (arraysOf memory graph)).map List.eraseDups

/-- Whether a structure at an address counts the modules of a graph. -/
def countsModules (memory : Memory) (graph : TypeGraph) (address : Int) : Bool :=
  let slot := Slots.distance graph.release.codeRegistrationSlots "code_gen_modules_count"
    memory.width
  match memory.readPointer (address + slot) "pointer" with
  | .ok count => count == graph.modules.size
  | .error _ => false

/-- The first structure that points to one of some arrays and counts the modules right. -/
def codeFrom (memory : Memory) (graph : TypeGraph) : List Int → Except Fault (Option Int)
  | [] => .ok none
  | array :: arrays => do
      let slot : Nat := Slots.distance graph.release.codeRegistrationSlots "code_gen_modules"
        memory.width
      let locations ← memory.findPointer array
      match (locations.map (· - (slot : Int))).find? (countsModules memory graph) with
      | some address => return some address
      | none => codeFrom memory graph arrays

/-- The address of a code registration. -/
def code (memory : Memory) (graph : TypeGraph) : Except Fault (Option Int) := do
  let arrays ← moduleArrays memory graph
  codeFrom memory graph arrays

/-- Whether the structure at an address counts as many types as a graph has, and its field offsets
are mapped. -/
def countsTypes (memory : Memory) (graph : TypeGraph) (address : Int) : Bool :=
  match Slots.read memory graph.release.metadataRegistrationSlots address "pointers" with
  | .ok slots =>
      slots.value "type_definitions_sizes_count" == graph.types.size &&
        (memory.space.segmentAt? (slots.value "field_offsets")).isSome
  | .error _ => false

/-- The address of a metadata registration. -/
def metadata (memory : Memory) (graph : TypeGraph) : Except Fault (Option Int) :=
  if graph.types.size = 0 then .ok none
  else
    let slot : Nat := Slots.distance graph.release.metadataRegistrationSlots "field_offsets_count"
      memory.width
    (memory.findPointer graph.types.size).map fun locations =>
      (locations.map (· - (slot : Int))).find? (countsTypes memory graph)

end TypeAtlas.Scan
