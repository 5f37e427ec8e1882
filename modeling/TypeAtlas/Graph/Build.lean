import TypeAtlas.Graph.Bounds
import TypeAtlas.Graph.Link
import TypeAtlas.Graph.TypeGraph
import TypeAtlas.Log
/-!
Building the graph of a blob. The passes follow each other in a fixed order, which numbers the
references and decides which fault is reported: types, their chains, modules, generic parameters,
methods, fields with their default values, properties, and method specs.
-/

namespace TypeAtlas.TypeGraph

/-- Makes a definition of each row, in order. -/
def mapRows {α β : Type} (make : Nat → α → Link β) (index : Nat) : List α → Link (List β)
  | [] => pure []
  | row :: rows => do
      let first ← make index row
      let rest ← mapRows make (index + 1) rows
      return first :: rest

def forRows {α β : Type} (rows : Array α) (make : Nat → α → Link β) : Link (Array β) := do
  let made ← mapRows make 0 rows.toList
  return made.toArray

/-- The generic parameters of a container. The index -1 stands for no container. -/
def containedParameters (rows : Rows) (container : Int) (table : Table) (index : Nat) :
    Except Fault (List Nat) := do
  if container = Bounds.noIndex then return []
  let found ← Bounds.index rows container .genericContainers
    ⟨table, index, "generic_container_index"⟩
  let row := (rows.genericContainers[found]?).getD ⟨0, 0, false, 0⟩
  Bounds.range rows row.parameterStart row.parameterCount .genericParameters
    ⟨.genericContainers, found, "generic_parameter_start"⟩

/-- The references at some places of a table of indices. -/
def listedReferences (rows : Rows) (indices : Array Int) (table : Table) (range : List Nat) :
    Link (List Nat) :=
  range.mapM fun i =>
    Link.reference rows ((indices[i]?).getD Bounds.noIndex) ⟨table, i, "value"⟩

/-- A type, not yet assigned to a module. -/
def makeType (rows : Rows) (index : Nat) (row : TypeRow) : Link TypeDefinition := do
  let site (field : String) : Site := ⟨.typeDefinitions, index, field⟩
  let base ← Bounds.optionalIndex rows row.base .typeDefinitions (site "parent_index")
  let enclosing ←
    Bounds.optionalIndex rows row.enclosing .typeDefinitions (site "declaring_type_index")
  let fields ← Bounds.range rows row.fieldStart row.fieldCount .fields (site "field_start")
  let methods ← Bounds.range rows row.methodStart row.methodCount .methods (site "method_start")
  let properties ←
    Bounds.range rows row.propertyStart row.propertyCount .properties (site "property_start")
  let nested ←
    Bounds.range rows row.nestedStart row.nestedCount .nestedTypes (site "nested_types_start")
  let listed ←
    Bounds.range rows row.interfaceStart row.interfaceCount .interfaces (site "interfaces_start")
  let name ← rows.strings.get row.name
  let namespaceName ← rows.strings.get row.namespaceName
  let nestedTypes ← nested.mapM fun i =>
    Bounds.index rows ((rows.nestedTypes[i]?).getD Bounds.noIndex) .typeDefinitions
      ⟨.nestedTypes, i, "value"⟩
  let interfaces ← listedReferences rows rows.interfaces .interfaces listed
  let genericParameters ← containedParameters rows row.genericContainer .typeDefinitions index
  return { name, namespaceName, module := none, base, enclosing, fields, methods, properties
           nestedTypes, interfaces, genericParameters, flags := row.flags
           bitfield := row.bitfield, token := row.token }

def makeModule (rows : Rows) (index : Nat) (row : ImageRow) : Link Module := do
  let range ←
    Bounds.range rows row.typeStart row.typeCount .typeDefinitions ⟨.images, index, "type_start"⟩
  let name ← rows.strings.get row.name
  return { name, typeStart := range.head?.getD 0, typeCount := range.length, token := row.token }

/-- The types, each with the first module that covers it. -/
def assignModules (types : Array TypeDefinition) (modules : Array Module) :
    Array TypeDefinition :=
  types.mapIdx fun index type =>
    { type with
      module := modules.findIdx? fun module =>
        decide (module.typeStart ≤ index) && decide (index < module.typeStart + module.typeCount) }

/-- A generic parameter, owned by the owner of its container. -/
def makeGenericParameter (rows : Rows) (index : Nat) (row : GenericParameterRow) :
    Link GenericParameter := do
  let container ← Bounds.index rows row.owner .genericContainers
    ⟨.genericParameters, index, "owner_index"⟩
  let owning := (rows.genericContainers[container]?).getD ⟨0, 0, false, 0⟩
  let owner ← Bounds.index rows owning.owner
    (if owning.isMethod then .methods else .typeDefinitions)
    ⟨.genericContainers, container, "owner_index"⟩
  let range ←
    Bounds.range rows row.constraintStart row.constraintCount .genericParameterConstraints
      ⟨.genericParameters, index, "constraints_start"⟩
  let name ← rows.strings.get row.name
  let constraints ← listedReferences rows rows.constraints .genericParameterConstraints range
  return { name, owner, isMethodOwner := owning.isMethod, position := row.position
           flags := row.flags, constraints }

def makeParameter (rows : Rows) (index : Nat) : Link Parameter := do
  let row := (rows.parameters[index]?).getD ⟨Strings.noString, Bounds.noIndex, 0⟩
  let name ← rows.strings.get row.name
  let type ← Link.reference rows row.type ⟨.parameters, index, "type_index"⟩
  return { name, type, token := row.token }

def makeMethod (rows : Rows) (index : Nat) (row : MethodRow) : Link Method := do
  let declaringType ← Bounds.index rows row.declaringType .typeDefinitions
    ⟨.methods, index, "declaring_type"⟩
  let range ← Bounds.range rows row.parameterStart row.parameterCount .parameters
    ⟨.methods, index, "parameter_start"⟩
  let parameters ← range.mapM (makeParameter rows)
  let name ← rows.strings.get row.name
  let returnType ← Link.reference rows row.returnType ⟨.methods, index, "return_type"⟩
  let genericParameters ← containedParameters rows row.genericContainer .methods index
  return { name, declaringType, returnType, parameters, genericParameters, flags := row.flags
           implementationFlags := row.implementationFlags, slot := row.slot, token := row.token }

/-- A field, declared by the first type that lists it, without its default value. Its attributes
are those of the row of its type. -/
def makeField (rows : Rows) (types : Array TypeDefinition) (index : Nat) (row : FieldRow) :
    Link FieldDefinition := do
  let type ← Link.reference rows row.type ⟨.fields, index, "type_index"⟩
  let name ← rows.strings.get row.name
  return { name, declaringType := types.findIdx? fun type => type.fields.contains index
           type, attributes := (Link.row rows row.type.toNat).attributes, token := row.token
           default := none }

/-- The field and the value of a row of the default values. -/
def makeDefault (rows : Rows) (index : Nat) (row : DefaultRow) : Except Fault (Nat × Constant) := do
  let field ← Bounds.index rows row.field .fields ⟨.fieldDefaultValues, index, "field_index"⟩
  let type ← Bounds.index rows row.type .typeReferences ⟨.fieldDefaultValues, index, "type_index"⟩
  let value ←
    Constant.read rows.release rows.defaultData (Link.row rows type).kind row.data index
  return (field, value)

/-- The fields with their default values. Of several values of one field the last one stays. -/
def assignDefaults (fields : Array FieldDefinition) (defaults : List (Nat × Constant)) :
    Array FieldDefinition :=
  defaults.foldl (fun fields (index, value) =>
    fields.modify index fun field => { field with default := some value }) fields

/-- A method of the declaring type, which an accessor counts from the first one. The index -1
stands for no accessor. -/
def accessor (type : TypeDefinition) (relative : Int) (index : Nat) (name : String) :
    Except Fault (Option Nat) :=
  if relative = Bounds.noIndex then .ok none
  else
    match if relative < 0 then none else type.methods[relative.toNat]? with
    | some method => .ok (some method)
    | none =>
        .error (Bounds.dangling
          ("Accessor '" ++ name ++ "' is outside the methods of '" ++ type.fullName ++ "'")
          .properties index (some relative))

/-- The property with an index, declared by the first type that lists it. A property that no type
lists has no accessors. -/
def makeProperty (rows : Rows) (types : Array TypeDefinition) (index : Nat) :
    Except Fault Property := do
  let row := (rows.properties[index]?).getD ⟨Strings.noString, Bounds.noIndex, Bounds.noIndex, 0, 0⟩
  let name ← rows.strings.get row.name
  let declaringType := types.findIdx? fun type => type.properties.contains index
  match declaringType.bind fun type => types[type]? with
  | some type =>
      let getter ← accessor type row.getter index "get"
      let setter ← accessor type row.setter index "set"
      return { name, declaringType, getter, setter, attributes := row.attributes
               token := row.token }
  | none =>
      return { name, declaringType, getter := none, setter := none, attributes := row.attributes
               token := row.token }

/-- The properties. They are checked type by type, then those that no type lists. -/
def makeProperties (rows : Rows) (types : Array TypeDefinition) :
    Except Fault (Array Property) := do
  let listed := types.toList.flatMap TypeDefinition.properties
  let _ ← listed.mapM (makeProperty rows types)
  let properties ← (List.range rows.properties.size).mapM (makeProperty rows types)
  return properties.toArray

def makeMethodSpec (rows : Rows) (index : Nat) (row : MethodSpecRow) : Link Nat := do
  let method ← Bounds.index rows row.method .methods
    ⟨.methodSpecs, index, "method_definition_index"⟩
  let classArguments ← Link.argumentList rows row.classArguments .methodSpecs index
  let arguments ← Link.argumentList rows row.methodArguments .methodSpecs index
  Link.internInstantiation ⟨method, true, classArguments, arguments⟩

/-- The text of a string literal. -/
def literal (rows : Rows) (row : LiteralRow) : String :=
  Text.decode (Bytes.slice rows.literalData row.data.toNat row.length.toNat).toList

/-- Links all rows. The links that remain say which reference each row has become. -/
def link (rows : Rows) : Link TypeGraph := do
  let unassigned ← forRows rows.types (makeType rows)
  Chain.checkTypes unassigned TypeDefinition.enclosing "is nested in"
  Chain.checkTypes unassigned TypeDefinition.base "derives from"
  let modules ← forRows rows.images (makeModule rows)
  let types := assignModules unassigned modules
  let genericParameters ← forRows rows.genericParameters (makeGenericParameter rows)
  let methods ← forRows rows.methods (makeMethod rows)
  let bare ← forRows rows.fields (makeField rows types)
  let defaults ← rows.defaults.toList.zipIdx.mapM fun (row, index) => makeDefault rows index row
  let fields := assignDefaults bare defaults
  let properties ← makeProperties rows types
  let methodSpecs ← forRows rows.methodSpecs (makeMethodSpec rows)
  let links ← get
  return { release := rows.release, modules, types, methods, fields, properties
           genericParameters, references := links.references.items
           instantiations := links.instantiations.items, methodSpecs
           literals := rows.literals.map (literal rows), methodAddresses := rows.methodAddresses }

/-- The graph of some rows. -/
def ofRows (rows : Rows) : Except Fault TypeGraph :=
  (StateT.run (link rows) {}).map Prod.fst

/-- Builds the graph of a blob, and tells about it. -/
def build (metadata : Metadata) : Logged TypeGraph := do
  let graph ← Logged.ofExcept (ofRows metadata.rows)
  Logged.info ("Built " ++ graph.shown ++ ".")
  return graph

end TypeAtlas.TypeGraph
