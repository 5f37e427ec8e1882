import TypeAtlas.Graph.Constant
import TypeAtlas.Metadata.Rows

namespace TypeAtlas

/-- Whether a pattern has a bit of a mask. -/
def hasBits (pattern mask : Nat) : Bool := pattern &&& mask != 0

/-- A module, which groups a range of types. -/
structure Module where
  name : String
  typeStart : Nat
  typeCount : Nat
  token : Nat

/-- The types that a module covers. -/
def Module.types (module : Module) : List Nat :=
  List.range' module.typeStart module.typeCount

structure TypeDefinition where
  name : String
  namespaceName : String
  module : Option Nat
  base : Option Nat
  enclosing : Option Nat
  fields : List Nat
  methods : List Nat
  properties : List Nat
  nestedTypes : List Nat
  interfaces : List Nat
  genericParameters : List Nat
  flags : Nat
  bitfield : Nat
  token : Nat

namespace TypeDefinition

def fullName (type : TypeDefinition) : String :=
  if type.namespaceName = "" then type.name else type.namespaceName ++ "." ++ type.name

def isInterface (type : TypeDefinition) : Bool := hasBits type.flags 0x20

def isAbstract (type : TypeDefinition) : Bool := hasBits type.flags 0x80

def isSealed (type : TypeDefinition) : Bool := hasBits type.flags 0x100

def isValueType (type : TypeDefinition) : Bool := hasBits type.bitfield 0x1

def isEnum (type : TypeDefinition) : Bool := hasBits type.bitfield 0x2

def isGeneric (type : TypeDefinition) : Bool := !type.genericParameters.isEmpty

/-- The access that the low three flags grant. -/
def visibility (type : TypeDefinition) : String :=
  match type.flags % 8 with
  | 1 | 2 => "public"
  | 3 => "private"
  | 4 => "protected"
  | 6 => "private protected"
  | 7 => "protected internal"
  | _ => "internal"

end TypeDefinition

/-- A parameter of a method. -/
structure Parameter where
  name : String
  type : Nat
  token : Nat

structure Method where
  name : String
  declaringType : Nat
  returnType : Nat
  parameters : List Parameter
  genericParameters : List Nat
  flags : Nat
  implementationFlags : Nat
  slot : Nat
  token : Nat

namespace Method

/-- The row of the token of a method, which counts from one. -/
def row (method : Method) : Nat := method.token % 0x1000000

def isStatic (method : Method) : Bool := hasBits method.flags 0x10

def isVirtual (method : Method) : Bool := hasBits method.flags 0x40

def isAbstract (method : Method) : Bool := hasBits method.flags 0x400

end Method

/-- A field. A field that no type lists has no declaring type. -/
structure FieldDefinition where
  name : String
  declaringType : Option Nat
  type : Nat
  attributes : Nat
  token : Nat
  default : Option Constant

namespace FieldDefinition

def isStatic (field : FieldDefinition) : Bool := hasBits field.attributes 0x10

def isLiteral (field : FieldDefinition) : Bool := hasBits field.attributes 0x40

end FieldDefinition

/-- A property. A property that no type lists has no declaring type. -/
structure Property where
  name : String
  declaringType : Option Nat
  getter : Option Nat
  setter : Option Nat
  attributes : Nat
  token : Nat

/-- A generic parameter of a type or of a method. -/
structure GenericParameter where
  name : String
  owner : Nat
  isMethodOwner : Bool
  position : Nat
  flags : Nat
  constraints : List Nat

end TypeAtlas
