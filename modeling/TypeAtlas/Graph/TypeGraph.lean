import TypeAtlas.Graph.Definition
import TypeAtlas.Graph.Reference

namespace TypeAtlas

/-- What is attached to a graph: addresses of methods and of instantiations, and offsets of fields.
Nothing is attached to an entry that its table does not reach. -/
structure Attachments where
  methods : Array (Option Int) := #[]
  instantiations : Array (Option Int) := #[]
  fields : Array (Option Int) := #[]

/-- The linked definitions of a blob. -/
structure TypeGraph where
  release : Release
  modules : Array Module
  types : Array TypeDefinition
  methods : Array Method
  fields : Array FieldDefinition
  properties : Array Property
  genericParameters : Array GenericParameter
  references : Array TypeReference
  instantiations : Array Instantiation
  /-- The instantiation of each method spec. -/
  methodSpecs : Array Nat
  literals : Array String
  /-- The entries of the method address table, by method. -/
  methodAddresses : Array Nat
  attached : Attachments := {}

namespace TypeGraph

/-- The address that is attached to a method. -/
def methodAddress? (graph : TypeGraph) (method : Nat) : Option Int :=
  (graph.attached.methods[method]?).join

/-- The address that is attached to an instantiation. -/
def genericAddress? (graph : TypeGraph) (instantiation : Nat) : Option Int :=
  (graph.attached.instantiations[instantiation]?).join

/-- The offset that is attached to a field. -/
def fieldOffset? (graph : TypeGraph) (field : Nat) : Option Int :=
  (graph.attached.fields[field]?).join

/-- The first type with a namespace and a name. -/
def lookup? (graph : TypeGraph) (namespaceName name : String) : Option Nat :=
  graph.types.findIdx? fun type => type.namespaceName == namespaceName && type.name == name

/-- The methods of the types of a module, type by type. -/
def listedMethods (graph : TypeGraph) (module : Module) : List Nat :=
  module.types.flatMap fun type => ((graph.types[type]?).map TypeDefinition.methods).getD []

def rowOf (graph : TypeGraph) (method : Nat) : Nat :=
  ((graph.methods[method]?).map Method.row).getD 0

/-- The methods of a module in the order of their row numbers; equal rows keep their order. -/
def methodsOf (graph : TypeGraph) (module : Module) : List Nat :=
  (graph.listedMethods module).mergeSort fun a b => decide (graph.rowOf a ≤ graph.rowOf b)

/-- The methods of a module in the order of their rows; an unknown module has none. -/
def moduleMethods (graph : TypeGraph) (index : Int) : List Nat :=
  match index with
  | .ofNat n => ((graph.modules[n]?).map graph.methodsOf).getD []
  | .negSucc _ => []

/-- The instantiation that a method spec stands for. -/
def methodInstantiation? (graph : TypeGraph) (spec : Int) : Option Nat :=
  match spec with
  | .ofNat n => graph.methodSpecs[n]?
  | .negSucc _ => none

/-- The mark of generic arity, which starts the part of a name that is not shown. -/
def arityMark : Char := Char.ofNat 96

/-- The name of a type up to the mark of generic arity. -/
def definitionName (graph : TypeGraph) (type : Nat) : String :=
  match graph.types[type]? with
  | none => ""
  | some type => String.ofList (type.name.toList.takeWhile (· != arityMark))

/-- What an array or a pointer adds to the name of its elements. -/
def elementSuffix (reference : TypeReference) : String :=
  if reference.kind = Kind.vector then "[]"
  else if reference.kind = Kind.array then
    "[" ++ String.ofList (List.replicate (max reference.rank 1 - 1) ',') ++ "]"
  else "*"

/-- What a reference by address adds to a name. -/
def byrefSuffix (reference : TypeReference) : String :=
  if reference.byref then "&" else ""

/-- What an array or a pointer adds to the name of its elements, as a whole. -/
def suffix (reference : TypeReference) : String :=
  elementSuffix reference ++ byrefSuffix reference

/-- The name of a kind that stands for a type by itself, or the number of any other kind. -/
def plainName (kind : Nat) : String :=
  (Kind.primitiveName? kind).getD ("<" ++ Hexadecimal.ofNat kind ++ ">")

/-- The reference behind the arrays and pointers of a reference, and what these add to its name, in
front of what others have added. -/
def passElements (graph : TypeGraph) (number : Nat) (suffixes : List String) :
    Option (TypeReference × List String) :=
  match graph.references[number]? with
  | none => none
  | some reference =>
      match reference.target with
      | .element inner =>
          if _h : inner < number then graph.passElements inner (suffix reference :: suffixes)
          else none
      | _ => some (reference, suffixes)
termination_by number

/-- The name of a reference that is no array and no pointer, without its mark. The names of the
arguments of a generic instance are given by a function. -/
def leafName (graph : TypeGraph) (argumentName : Nat → Except Fault String)
    (leaf : TypeReference) : Except Fault String :=
  match leaf.target with
  | .definition type => .ok (graph.definitionName type)
  | .parameter parameter =>
      .ok (((graph.genericParameters[parameter]?).map GenericParameter.name).getD "")
  | .instantiation index =>
      match graph.instantiations[index]? with
      | none => .ok ""
      | some instantiation => do
          let arguments ← instantiation.arguments.mapM argumentName
          return graph.definitionName instantiation.definition ++ "<" ++
            ", ".intercalate arguments ++ ">"
  | .element _ | .nothing => .ok (plainName leaf.kind)

/-- What is reported when a name takes more nested calls than there is room for. -/
def tooManyCalls : Fault :=
  { kind := .nestedTooDeep, message := "maximum recursion depth exceeded" }

/-- The name of the type that a reference refers to, as a program would write it. It takes a call,
and so do the names of the arguments of a generic instance, for which there is room for one call
less. -/
def typeName (graph : TypeGraph) : (room number : Nat) → Except Fault String
  | 0, _ => .error tooManyCalls
  | room + 1, number =>
      match graph.passElements number [] with
      | none => .ok ""
      | some (leaf, suffixes) => do
          let name ← graph.leafName (graph.typeName room) leaf
          return name ++ byrefSuffix leaf ++ String.join suffixes

/-- The name of a method behind the full name of its declaring type. -/
def methodName (graph : TypeGraph) (index : Nat) : String :=
  match graph.methods[index]? with
  | none => ""
  | some method =>
      ((graph.types[method.declaringType]?).map TypeDefinition.fullName).getD "" ++ "$$" ++
        method.name

/-- The text that sums up a graph. -/
def shown (graph : TypeGraph) : String :=
  "TypeGraph(version=" ++ graph.release.tag ++ ", types=" ++ toString graph.types.size ++
    ", methods=" ++ toString graph.methods.size ++ ", fields=" ++ toString graph.fields.size ++
    ", instantiations=" ++ toString graph.instantiations.size ++ ")"

end TypeGraph

end TypeAtlas
