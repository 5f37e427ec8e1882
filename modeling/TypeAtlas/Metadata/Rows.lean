import TypeAtlas.Metadata.Blob

namespace TypeAtlas

/-- A row of the type definitions. -/
structure TypeRow where
  name : Int
  namespaceName : Int
  base : Int
  enclosing : Int
  genericContainer : Int
  fieldStart : Int
  fieldCount : Int
  methodStart : Int
  methodCount : Int
  propertyStart : Int
  propertyCount : Int
  nestedStart : Int
  nestedCount : Int
  interfaceStart : Int
  interfaceCount : Int
  flags : Nat
  bitfield : Nat
  token : Nat

structure MethodRow where
  name : Int
  declaringType : Int
  returnType : Int
  parameterStart : Int
  parameterCount : Int
  genericContainer : Int
  flags : Nat
  implementationFlags : Nat
  slot : Nat
  token : Nat

structure ParameterRow where
  name : Int
  type : Int
  token : Nat

structure FieldRow where
  name : Int
  type : Int
  token : Nat

/-- A row of the default values of fields. -/
structure DefaultRow where
  field : Int
  type : Int
  data : Int

/-- A row of the properties. Accessors count from the first method of the declaring type. -/
structure PropertyRow where
  name : Int
  getter : Int
  setter : Int
  attributes : Nat
  token : Nat

structure GenericParameterRow where
  owner : Int
  name : Int
  constraintStart : Int
  constraintCount : Int
  position : Nat
  flags : Nat

/-- A row of the generic containers, which own the generic parameters of a type or a method. -/
structure GenericContainerRow where
  owner : Int
  parameterCount : Int
  isMethod : Bool
  parameterStart : Int

/-- A row of the images. -/
structure ImageRow where
  name : Int
  typeStart : Int
  typeCount : Int
  token : Nat

/-- A row of the type references. What `data` counts in is selected by `kind`; `attributes` belong
to the member that uses the reference. -/
structure ReferenceRow where
  data : Int
  attributes : Nat
  kind : Nat
  flags : Nat

/-- Whether a type is passed by reference. -/
def ReferenceRow.byref (row : ReferenceRow) : Bool := row.flags % 2 == 1

/-- The number of dimensions of an array. -/
def ReferenceRow.rank (row : ReferenceRow) : Nat := row.flags / 4

/-- A row of the generic classes. -/
structure GenericClassRow where
  definition : Int
  arguments : Int

/-- A row of the generic argument lists. -/
structure GenericInstRow where
  argumentCount : Int
  argumentStart : Int

structure MethodSpecRow where
  method : Int
  classArguments : Int
  methodArguments : Int

/-- A row of the string literals. -/
structure LiteralRow where
  length : Int
  data : Int

/-- All rows of a blob, with its strings and the data that rows refer to. -/
structure Rows where
  release : Release
  strings : Strings
  types : Array TypeRow
  methods : Array MethodRow
  parameters : Array ParameterRow
  fields : Array FieldRow
  defaults : Array DefaultRow
  properties : Array PropertyRow
  genericParameters : Array GenericParameterRow
  constraints : Array Int
  genericContainers : Array GenericContainerRow
  nestedTypes : Array Int
  interfaces : Array Int
  images : Array ImageRow
  references : Array ReferenceRow
  genericClasses : Array GenericClassRow
  genericInsts : Array GenericInstRow
  genericArguments : Array Int
  methodSpecs : Array MethodSpecRow
  literals : Array LiteralRow
  methodAddresses : Array Nat
  defaultData : ByteArray
  literalData : ByteArray

namespace Metadata

/-- The rows of a table, given how a row is made from its named values. -/
def rowsOf {α : Type} (metadata : Metadata) (table : Table) (make : (String → Int) → α) :
    Array α :=
  let fields := metadata.release.fieldsOf table
  (metadata.table table).map fun record => make (fun name => record.value fields name)

/-- The values of a table whose records have one field. -/
def indices (metadata : Metadata) (table : Table) : Array Int :=
  metadata.rowsOf table fun value => value "value"

/-- The rows of a blob. -/
def rows (metadata : Metadata) : Rows where
  release := metadata.release
  strings := metadata.strings
  types := metadata.rowsOf .typeDefinitions fun value =>
    { name := value "name_index"
      namespaceName := value "namespace_index"
      base := value "parent_index"
      enclosing := value "declaring_type_index"
      genericContainer := value "generic_container_index"
      fieldStart := value "field_start"
      fieldCount := value "field_count"
      methodStart := value "method_start"
      methodCount := value "method_count"
      propertyStart := value "property_start"
      propertyCount := value "property_count"
      nestedStart := value "nested_types_start"
      nestedCount := value "nested_type_count"
      interfaceStart := value "interfaces_start"
      interfaceCount := value "interfaces_count"
      flags := (value "flags").toNat
      bitfield := (value "bitfield").toNat
      token := (value "token").toNat }
  methods := metadata.rowsOf .methods fun value =>
    { name := value "name_index"
      declaringType := value "declaring_type"
      returnType := value "return_type"
      parameterStart := value "parameter_start"
      parameterCount := value "parameter_count"
      genericContainer := value "generic_container_index"
      flags := (value "flags").toNat
      implementationFlags := (value "iflags").toNat
      slot := (value "slot").toNat
      token := (value "token").toNat }
  parameters := metadata.rowsOf .parameters fun value =>
    { name := value "name_index", type := value "type_index", token := (value "token").toNat }
  fields := metadata.rowsOf .fields fun value =>
    { name := value "name_index", type := value "type_index", token := (value "token").toNat }
  defaults := metadata.rowsOf .fieldDefaultValues fun value =>
    { field := value "field_index", type := value "type_index", data := value "data_index" }
  properties := metadata.rowsOf .properties fun value =>
    { name := value "name_index"
      getter := value "get"
      setter := value "set"
      attributes := (value "attrs").toNat
      token := (value "token").toNat }
  genericParameters := metadata.rowsOf .genericParameters fun value =>
    { owner := value "owner_index"
      name := value "name_index"
      constraintStart := value "constraints_start"
      constraintCount := value "constraints_count"
      position := (value "num").toNat
      flags := (value "flags").toNat }
  constraints := metadata.indices .genericParameterConstraints
  genericContainers := metadata.rowsOf .genericContainers fun value =>
    { owner := value "owner_index"
      parameterCount := value "type_argc"
      isMethod := value "is_method" != 0
      parameterStart := value "generic_parameter_start" }
  nestedTypes := metadata.indices .nestedTypes
  interfaces := metadata.indices .interfaces
  images := metadata.rowsOf .images fun value =>
    { name := value "name_index"
      typeStart := value "type_start"
      typeCount := value "type_count"
      token := (value "token").toNat }
  references := metadata.rowsOf .typeReferences fun value =>
    { data := value "data"
      attributes := (value "attrs").toNat
      kind := (value "kind").toNat
      flags := (value "flags").toNat }
  genericClasses := metadata.rowsOf .genericClasses fun value =>
    { definition := value "type_definition_index", arguments := value "class_inst_index" }
  genericInsts := metadata.rowsOf .genericInsts fun value =>
    { argumentCount := value "argc", argumentStart := value "arg_start" }
  genericArguments := metadata.indices .genericArguments
  methodSpecs := metadata.rowsOf .methodSpecs fun value =>
    { method := value "method_definition_index"
      classArguments := value "class_inst_index"
      methodArguments := value "method_inst_index" }
  literals := metadata.rowsOf .stringLiterals fun value =>
    { length := value "length", data := value "data_index" }
  methodAddresses := metadata.rowsOf .methodAddresses fun value => (value "address").toNat
  defaultData := metadata.blob .defaultValueData
  literalData := metadata.blob .stringLiteralData

end Metadata

end TypeAtlas
