namespace TypeAtlas

/-- What a kind of reference refers to. -/
inductive Role
  /-- An array or a pointer refers to the reference of its elements. -/
  | element
  /-- A class or a value type refers to its definition. -/
  | definition
  /-- A type variable refers to a generic parameter. -/
  | parameter
  /-- A generic instance refers to an instantiation. -/
  | instantiation
  /-- Any other kind refers to nothing. -/
  | plain
  deriving DecidableEq

namespace Kind

def boolean : Nat := 0x02

/-- The kind of a UTF-16 code unit. -/
def char : Nat := 0x03

def int8 : Nat := 0x04

def uint8 : Nat := 0x05

/-- The kind of a signed number of 16 bits. -/
def int16 : Nat := 0x06

/-- The kind of an unsigned number of 16 bits. -/
def uint16 : Nat := 0x07

/-- The kind of a signed number of 32 bits. -/
def int32 : Nat := 0x08

/-- The kind of an unsigned number of 32 bits. -/
def uint32 : Nat := 0x09

/-- The kind of a signed number of 64 bits. -/
def int64 : Nat := 0x0A

/-- The kind of an unsigned number of 64 bits. -/
def uint64 : Nat := 0x0B

def single : Nat := 0x0C

def double : Nat := 0x0D

def string : Nat := 0x0E

def pointer : Nat := 0x0F

def valueType : Nat := 0x11

def classType : Nat := 0x12

def typeVariable : Nat := 0x13

def array : Nat := 0x14

def genericInstance : Nat := 0x15

def vector : Nat := 0x1D

def methodVariable : Nat := 0x1E

/-- What the data of a kind of references refers to. -/
def role (kind : Nat) : Role :=
  if kind = vector ∨ kind = array ∨ kind = pointer then .element
  else if kind = classType ∨ kind = valueType then .definition
  else if kind = typeVariable ∨ kind = methodVariable then .parameter
  else if kind = genericInstance then .instantiation
  else .plain

/-- The kinds that stand for a type by themselves, with the names of the types. -/
def primitives : List (Nat × String) :=
  [(0x01, "void"), (boolean, "bool"), (char, "char"), (int8, "sbyte"), (uint8, "byte"),
    (int16, "short"), (uint16, "ushort"), (int32, "int"), (uint32, "uint"), (int64, "long"),
    (uint64, "ulong"), (single, "float"), (double, "double"), (string, "string"),
    (0x16, "TypedReference"), (0x18, "IntPtr"), (0x19, "UIntPtr"), (0x1C, "object")]

/-- The name of a kind that stands for a type by itself. -/
def primitiveName? (kind : Nat) : Option String := primitives.lookup kind

theorem role_eq_plain {kind : Nat} {name : String} (h : primitiveName? kind = some name) :
    role kind = .plain := by
  have hmem : kind ∈ primitives.map Prod.fst := by
    by_cases hk : kind ∈ primitives.map Prod.fst
    · exact hk
    · have hnone : primitives.lookup kind = none := by
        rw [List.lookup_eq_none_iff]
        intro entry hentry
        have hne : kind ≠ entry.1 := by
          rintro rfl
          exact hk (List.mem_map_of_mem hentry)
        simp [hne]
      simp [primitiveName?, hnone] at h
  have hall : ∀ k ∈ primitives.map Prod.fst, role k = .plain := by decide
  exact hall kind hmem

end Kind

/-- What a reference refers to, selected by its kind. -/
inductive Target
  | nothing
  | element (reference : Nat)
  | definition (type : Nat)
  | parameter (parameter : Nat)
  | instantiation (instantiation : Nat)
  deriving DecidableEq, Hashable

/-- The number by which a reference shows what it refers to. -/
def Target.number : Target → Int
  | nothing => -1
  | element n | definition n | parameter n | instantiation n => n

/-- A type as a definition refers to it. -/
structure TypeReference where
  kind : Nat
  target : Target
  byref : Bool
  rank : Nat
  deriving DecidableEq, Hashable

/-- Whether the kind of a reference stands for a type by itself. -/
def TypeReference.isPrimitive (reference : TypeReference) : Bool :=
  (Kind.primitiveName? reference.kind).isSome

/-- A generic type or method bound to type arguments. For a method, `definition` is the method and
`classArguments` are the arguments of its declaring type. -/
structure Instantiation where
  definition : Nat
  isMethod : Bool
  classArguments : List Nat
  arguments : List Nat
  deriving DecidableEq, Hashable

end TypeAtlas
