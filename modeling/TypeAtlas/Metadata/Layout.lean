import TypeAtlas.Metadata.Record
import TypeAtlas.Release

namespace TypeAtlas.Release

open TypeAtlas.Field

/-- A part of a layout that exists under a condition. -/
def only {α : Type} (condition : Bool) (part : List α) : List α :=
  if condition then part else []

/-- The tables that a header declares, in its order. -/
def headerTables (release : Release) : List Table :=
  [.stringLiterals, .stringLiteralData, .strings, .properties, .methods, .fieldDefaultValues,
    .defaultValueData, .parameters, .fields, .genericParameters, .genericParameterConstraints,
    .genericContainers, .nestedTypes, .interfaces, .typeDefinitions] ++
  only (release < v24_2) [.rgctxEntries] ++
  [.images, .typeReferences, .genericClasses, .genericInsts, .genericArguments, .methodSpecs,
    .methodAddresses] ++
  only (release.isAtLeast v29_0) [.attributeData, .attributeDataRanges]

/-- The size of the header: sanity value and version, then the offset and the size of each
table. -/
def headerSize (release : Release) : Nat :=
  8 + 8 * release.headerTables.length

def typeFields (release : Release) : List Field :=
  [i32 "name_index", i32 "namespace_index"] ++
  only (release < v24_1) [i32 "custom_attribute_index"] ++
  [i32 "byval_type_index", i32 "declaring_type_index", i32 "parent_index",
    i32 "element_type_index"] ++
  only (release < v24_2) [i32 "rgctx_start_index", i32 "rgctx_count"] ++
  [i32 "generic_container_index", u32 "flags", i32 "field_start", i32 "method_start",
    i32 "event_start", i32 "property_start", i32 "nested_types_start", i32 "interfaces_start",
    i32 "vtable_start", i32 "interface_offsets_start", u16 "method_count", u16 "property_count",
    u16 "field_count", u16 "event_count", u16 "nested_type_count", u16 "vtable_count",
    u16 "interfaces_count", u16 "interface_offsets_count", u32 "bitfield", u32 "token"]

def methodFields (release : Release) : List Field :=
  [i32 "name_index", i32 "declaring_type", i32 "return_type", i32 "parameter_start"] ++
  only (release < v24_1) [i32 "custom_attribute_index"] ++
  [i32 "generic_container_index"] ++
  only (release < v24_2)
    [i32 "method_index", i32 "invoker_index", i32 "delegate_wrapper_index",
      i32 "rgctx_start_index", i32 "rgctx_count"] ++
  [u32 "token"] ++
  only (release.isAtLeast v31_0) [u32 "return_parameter_token"] ++
  [u16 "flags", u16 "iflags", u16 "slot", u16 "parameter_count"]

/-- The fields of an image, which groups the types of one module. -/
def imageFields (release : Release) : List Field :=
  [i32 "name_index", i32 "assembly_index", i32 "type_start", u32 "type_count",
    i32 "exported_type_start", u32 "exported_type_count", i32 "entry_point_index", u32 "token"] ++
  only (release.isAtLeast v24_1) [i32 "custom_attribute_start", u32 "custom_attribute_count"]

def propertyFields (release : Release) : List Field :=
  [i32 "name_index", i32 "get", i32 "set", u32 "attrs"] ++
  only (release < v24_1) [i32 "custom_attribute_index"] ++
  [u32 "token"]

def parameterFields (release : Release) : List Field :=
  [i32 "name_index", u32 "token"] ++
  only (release < v24_1) [i32 "custom_attribute_index"] ++
  [i32 "type_index"]

def fieldFields (release : Release) : List Field :=
  [i32 "name_index", i32 "type_index"] ++
  only (release < v24_1) [i32 "custom_attribute_index"] ++
  [u32 "token"]

/-- The fields of the records of a table, unless it is one of raw bytes. -/
def recordFields (release : Release) : Table → Option (List Field)
  | .stringLiterals => some [u32 "length", i32 "data_index"]
  | .properties => some release.propertyFields
  | .methods => some release.methodFields
  | .fieldDefaultValues => some [i32 "field_index", i32 "type_index", i32 "data_index"]
  | .parameters => some release.parameterFields
  | .fields => some release.fieldFields
  | .genericParameters =>
      some [i32 "owner_index", i32 "name_index", i16 "constraints_start", i16 "constraints_count",
        u16 "num", u16 "flags"]
  | .genericContainers =>
      some [i32 "owner_index", i32 "type_argc", i32 "is_method", i32 "generic_parameter_start"]
  | .typeDefinitions => some release.typeFields
  | .images => some release.imageFields
  | .typeReferences => some [i32 "data", u16 "attrs", u8 "kind", u8 "flags"]
  | .genericClasses => some [i32 "type_definition_index", i32 "class_inst_index"]
  | .genericInsts => some [u32 "argc", i32 "arg_start"]
  | .methodSpecs =>
      some [i32 "method_definition_index", i32 "class_inst_index", i32 "method_inst_index"]
  | .methodAddresses => some [u64 "address"]
  | .genericParameterConstraints | .nestedTypes | .interfaces | .genericArguments =>
      some [i32 "value"]
  | .stringLiteralData | .strings | .defaultValueData | .rgctxEntries | .attributeData
  | .attributeDataRanges => none

/-- Whether a table is one of raw bytes. -/
def isBlob (release : Release) (table : Table) : Bool :=
  (release.recordFields table).isNone

/-- The fields of the records of a table; a table of raw bytes has none. -/
def fieldsOf (release : Release) (table : Table) : List Field :=
  (release.recordFields table).getD []

/-- The number of bytes of a record of a table. -/
def recordWidth (release : Release) (table : Table) : Nat :=
  Record.width (release.fieldsOf table)

/-- The tables that hold records, in the order of the header. -/
def recordTables (release : Release) : List Table :=
  release.headerTables.filter fun table => !release.isBlob table

/-- The fields of a record that hold offsets into the string table. -/
def stringFields : Table → List String
  | .typeDefinitions => ["name_index", "namespace_index"]
  | .methods | .parameters | .fields | .properties | .genericParameters | .images => ["name_index"]
  | _ => []

/-- The names of the slots of a code registration. -/
def codeRegistrationSlots (release : Release) : List String :=
  ["reverse_pinvoke_wrapper_count", "reverse_pinvoke_wrappers", "generic_method_pointers_count",
    "generic_method_pointers", "invoker_pointers_count", "invoker_pointers"] ++
  only (release < v27_0) ["custom_attribute_count", "custom_attribute_generators"] ++
  only (release.isAtLeast v24_2)
    (["unresolved_virtual_call_count", "unresolved_virtual_call_pointers"] ++
      only (release.isAtLeast v29_0)
        ["unresolved_instance_call_pointers", "unresolved_static_call_pointers"] ++
      ["interop_data_count", "interop_data", "windows_runtime_factory_count",
        "windows_runtime_factory_table"]) ++
  ["code_gen_modules_count", "code_gen_modules"]

/-- The names of the slots of a module. -/
def codeGenModuleSlots (release : Release) : List String :=
  ["module_name", "method_pointer_count", "method_pointers"] ++
  only (release.isAtLeast v31_0) ["adjustor_thunk_count", "adjustor_thunks"] ++
  ["invoker_indices", "reverse_pinvoke_wrapper_count", "reverse_pinvoke_wrapper_indices",
    "rgctx_ranges_count", "rgctx_ranges", "rgctxs_count", "rgctxs", "debugger_metadata"] ++
  only (release.isAtLeast v27_0)
    (only (release < v29_0) ["custom_attribute_cache_generator"] ++
      ["module_initializer", "static_constructor_type_indices", "metadata_registration",
        "code_registration"])

/-- The names of the slots of a metadata registration. -/
def metadataRegistrationSlots (release : Release) : List String :=
  ["generic_method_table_count", "generic_method_table", "field_offsets_count", "field_offsets",
    "type_definitions_sizes_count", "type_definitions_sizes"] ++
  only (release < v27_0) ["metadata_usages_count", "metadata_usages"]

def genericMethodFields (release : Release) : List Field :=
  [i32 "generic_method_index", i32 "method_index", i32 "invoker_index"] ++
  only (release.isAtLeast v27_0) [i32 "adjustor_thunk_index"]

theorem recordFields_eq_some {release : Release} {table : Table}
    (h : release.isBlob table = false) :
    release.recordFields table = some (release.fieldsOf table) := by
  unfold isBlob at h
  unfold fieldsOf
  cases hfields : release.recordFields table with
  | none => simp [hfields] at h
  | some fields => rfl

theorem recordWidth_pos {release : Release} {table : Table}
    (h : release.isBlob table = false) : 0 < release.recordWidth table := by
  revert h
  cases release <;> cases table <;> decide

theorem nodup_headerTables (release : Release) : release.headerTables.Nodup := by
  cases release <;> decide

end TypeAtlas.Release
