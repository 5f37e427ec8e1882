import TypeAtlas.Bytes

namespace TypeAtlas

/-- The tables that a header may declare. -/
inductive Table
  | stringLiterals
  | stringLiteralData
  | strings
  | properties
  | methods
  | fieldDefaultValues
  | defaultValueData
  | parameters
  | fields
  | genericParameters
  | genericParameterConstraints
  | genericContainers
  | nestedTypes
  | interfaces
  | typeDefinitions
  | rgctxEntries
  | images
  | typeReferences
  | genericClasses
  | genericInsts
  | genericArguments
  | methodSpecs
  | methodAddresses
  | attributeData
  | attributeDataRanges
  deriving DecidableEq

namespace Table

def name : Table → String
  | stringLiterals => "string_literals"
  | stringLiteralData => "string_literal_data"
  | strings => "strings"
  | properties => "properties"
  | methods => "methods"
  | fieldDefaultValues => "field_default_values"
  | defaultValueData => "field_and_parameter_default_value_data"
  | parameters => "parameters"
  | fields => "fields"
  | genericParameters => "generic_parameters"
  | genericParameterConstraints => "generic_parameter_constraints"
  | genericContainers => "generic_containers"
  | nestedTypes => "nested_types"
  | interfaces => "interfaces"
  | typeDefinitions => "type_definitions"
  | rgctxEntries => "rgctx_entries"
  | images => "images"
  | typeReferences => "type_references"
  | genericClasses => "generic_classes"
  | genericInsts => "generic_insts"
  | genericArguments => "generic_arguments"
  | methodSpecs => "method_specs"
  | methodAddresses => "method_addresses"
  | attributeData => "attribute_data"
  | attributeDataRanges => "attribute_data_ranges"

end Table

/-- A field of a record: its name, its width in bytes, and whether its values are signed. -/
structure Field where
  name : String
  width : Nat
  signed : Bool
  deriving DecidableEq

/-- The values of the fields of one row, in the order of the fields. -/
abbrev Record := List Int

namespace Field

/-- A signed field of 32 bits. -/
def i32 (name : String) : Field := ⟨name, 4, true⟩

/-- A signed field of 16 bits. -/
def i16 (name : String) : Field := ⟨name, 2, true⟩

/-- An unsigned field of 8 bits. -/
def u8 (name : String) : Field := ⟨name, 1, false⟩

/-- An unsigned field of 16 bits. -/
def u16 (name : String) : Field := ⟨name, 2, false⟩

/-- An unsigned field of 32 bits. -/
def u32 (name : String) : Field := ⟨name, 4, false⟩

/-- An unsigned field of 64 bits. -/
def u64 (name : String) : Field := ⟨name, 8, false⟩

def read (field : Field) (data : ByteArray) (place : Nat) : Int :=
  let word : Int := Bytes.littleEndian data place field.width
  if field.signed then Bytes.toSigned word field.width else word

/-- The bytes of a value; what does not fit the width is lost. -/
def write (field : Field) (value : Int) : List UInt8 :=
  Bytes.ofNat (value % (Nat.pow 256 field.width : Int)).toNat field.width

/-- The least value of a field. -/
def least (field : Field) : Int :=
  if field.signed then -(Nat.pow 2 (8 * field.width - 1) : Int) else 0

/-- One more than the greatest value of a field. -/
def bound (field : Field) : Int :=
  if field.signed then Nat.pow 2 (8 * field.width - 1) else Nat.pow 2 (8 * field.width)

/-- A value fits a field. -/
def Holds (field : Field) (value : Int) : Prop :=
  field.least ≤ value ∧ value < field.bound

end Field

namespace Record

/-- The number of bytes of some fields. -/
def width (fields : List Field) : Nat :=
  fields.foldr (fun field rest => field.width + rest) 0

def read : (fields : List Field) → (data : ByteArray) → (place : Nat) → Record
  | [], _, _ => []
  | field :: fields, data, place =>
      field.read data place :: read fields data (place + field.width)

def write : (fields : List Field) → Record → List UInt8
  | field :: fields, value :: values => field.write value ++ write fields values
  | _, _ => []

/-- The records of a table of `count` rows that starts at a place. -/
def readAll (fields : List Field) (data : ByteArray) (place count : Nat) : Array Record :=
  (Array.range count).map fun row => read fields data (place + row * width fields)

/-- The value of the field with a name. -/
def value (fields : List Field) (name : String) (record : Record) : Int :=
  (record[fields.findIdx fun field => field.name == name]?).getD 0

theorem length_read (fields : List Field) (data : ByteArray) (place : Nat) :
    (read fields data place).length = fields.length := by
  induction fields generalizing place with
  | nil => rfl
  | cons field fields ih => simp [read, ih]

theorem size_readAll (fields : List Field) (data : ByteArray) (place count : Nat) :
    (readAll fields data place count).size = count := by
  simp [readAll]

end Record

end TypeAtlas
