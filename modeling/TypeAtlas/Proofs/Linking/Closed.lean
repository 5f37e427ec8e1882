import TypeAtlas.Proofs.Linking.Graph

namespace TypeAtlas.TypeGraph

open Links

/-- A target lies inside of the table that a role selects. Instantiations that references refer to
are those of types. -/
inductive TargetInside (graph : TypeGraph) : Role → Target → Prop
  | element {number : Nat} (h : number < graph.references.size) :
      TargetInside graph .element (.element number)
  | definition {type : Nat} (h : type < graph.types.size) :
      TargetInside graph .definition (.definition type)
  | parameter {parameter : Nat} (h : parameter < graph.genericParameters.size) :
      TargetInside graph .parameter (.parameter parameter)
  | instantiation {number : Nat} {instantiation : Instantiation}
      (hnumber : graph.instantiations[number]? = some instantiation)
      (htype : instantiation.isMethod = false) :
      TargetInside graph .instantiation (.instantiation number)
  | plain : TargetInside graph .plain .nothing

/-- A reference that a reference refers to, directly or as an argument of an instantiation. -/
inductive Uses (graph : TypeGraph) (reference : TypeReference) : Nat → Prop
  | element {number : Nat} (h : reference.target = .element number) : Uses graph reference number
  | argument {index number : Nat} {instantiation : Instantiation}
      (h : reference.target = .instantiation index)
      (hindex : graph.instantiations[index]? = some instantiation)
      (hnumber : number ∈ instantiation.arguments) : Uses graph reference number

/-- Every index of a type lies inside of its table. -/
structure TypeClosed (graph : TypeGraph) (type : TypeDefinition) : Prop where
  base : ∀ base ∈ type.base, base < graph.types.size
  enclosing : ∀ outer ∈ type.enclosing, outer < graph.types.size
  nestedTypes : ∀ nested ∈ type.nestedTypes, nested < graph.types.size
  fields : ∀ field ∈ type.fields, field < graph.fields.size
  methods : ∀ method ∈ type.methods, method < graph.methods.size
  properties : ∀ property ∈ type.properties, property < graph.properties.size
  genericParameters : ∀ parameter ∈ type.genericParameters,
    parameter < graph.genericParameters.size
  interfaces : ∀ number ∈ type.interfaces, number < graph.references.size
  module : ∀ module ∈ type.module, module < graph.modules.size

/-- Every index of a method lies inside of its table. -/
structure MethodClosed (graph : TypeGraph) (method : Method) : Prop where
  declaringType : method.declaringType < graph.types.size
  returnType : method.returnType < graph.references.size
  parameters : ∀ parameter ∈ method.parameters, parameter.type < graph.references.size
  genericParameters : ∀ parameter ∈ method.genericParameters,
    parameter < graph.genericParameters.size

/-- Every index of a field lies inside of its table. -/
structure FieldClosed (graph : TypeGraph) (field : FieldDefinition) : Prop where
  type : field.type < graph.references.size
  declaringType : ∀ type ∈ field.declaringType, type < graph.types.size

/-- Every index of a property lies inside of its table, and its accessors are methods of the type
that declares it. -/
structure PropertyClosed (graph : TypeGraph) (property : Property) : Prop where
  declaringType : ∀ type ∈ property.declaringType, type < graph.types.size
  accessors : ∀ method, property.getter = some method ∨ property.setter = some method →
    ∃ index type, property.declaringType = some index ∧ graph.types[index]? = some type ∧
      method ∈ type.methods

/-- Every index of a generic parameter lies inside of its table. -/
structure ParameterClosed (graph : TypeGraph) (parameter : GenericParameter) : Prop where
  owner : parameter.owner <
    if parameter.isMethodOwner then graph.methods.size else graph.types.size
  constraints : ∀ number ∈ parameter.constraints, number < graph.references.size

/-- Every index of an instantiation lies inside of its table. -/
structure InstantiationClosed (graph : TypeGraph) (instantiation : Instantiation) : Prop where
  definition : instantiation.definition <
    if instantiation.isMethod then graph.methods.size else graph.types.size
  classArguments : ∀ number ∈ instantiation.classArguments, number < graph.references.size
  arguments : ∀ number ∈ instantiation.arguments, number < graph.references.size

/-- Every index of a graph lies inside of its table, references refer to smaller numbers only, and
method specs are instantiations of methods. -/
structure Closed (graph : TypeGraph) : Prop where
  types : ∀ type ∈ graph.types, graph.TypeClosed type
  modules : ∀ module ∈ graph.modules, ∀ type ∈ module.types, type < graph.types.size
  methods : ∀ method ∈ graph.methods, graph.MethodClosed method
  fields : ∀ field ∈ graph.fields, graph.FieldClosed field
  properties : ∀ property ∈ graph.properties, graph.PropertyClosed property
  genericParameters : ∀ parameter ∈ graph.genericParameters, graph.ParameterClosed parameter
  references : ∀ reference ∈ graph.references,
    graph.TargetInside (Kind.role reference.kind) reference.target
  descending : ∀ {number : Nat} {reference : TypeReference},
    graph.references[number]? = some reference → ∀ used, graph.Uses reference used → used < number
  instantiations : ∀ instantiation ∈ graph.instantiations,
    graph.InstantiationClosed instantiation
  methodSpecs : ∀ spec ∈ graph.methodSpecs, ∃ instantiation,
    graph.instantiations[spec]? = some instantiation ∧ instantiation.isMethod = true

/-- The name of a method, looked up without a default. -/
def methodName? (graph : TypeGraph) (index : Nat) : Option String := do
  let method ← graph.methods[index]?
  let type ← graph.types[method.declaringType]?
  return type.fullName ++ "$$" ++ method.name

/-- The methods of a module, looked up without a default. -/
def moduleMethods? (graph : TypeGraph) (index : Nat) : Option (List Nat) := do
  let module ← graph.modules[index]?
  let types ← module.types.mapM fun type => graph.types[type]?
  let listed := types.flatMap TypeDefinition.methods
  let _ ← listed.mapM fun method => graph.methods[method]?
  return listed.mergeSort fun a b => decide (graph.rowOf a ≤ graph.rowOf b)

/-- The name of a type up to the mark of generic arity, looked up without a default. -/
def definitionName? (graph : TypeGraph) (type : Nat) : Option String := do
  let type ← graph.types[type]?
  return String.ofList (type.name.toList.takeWhile (· != arityMark))

/-- The name of the type that a reference refers to, looked up without a default. A reference that
does not refer to smaller numbers has none. -/
def typeName? (graph : TypeGraph) (number : Nat) : Option String := do
  let reference ← graph.references[number]?
  let base ←
    match reference.target with
    | .element inner =>
        if inner < number then do
          let name ← graph.typeName? inner
          pure (name ++ elementSuffix reference)
        else none
    | .definition type => graph.definitionName? type
    | .parameter parameter => do
        let parameter ← graph.genericParameters[parameter]?
        pure parameter.name
    | .instantiation index => do
        let instantiation ← graph.instantiations[index]?
        let name ← graph.definitionName? instantiation.definition
        let arguments ← instantiation.arguments.mapM fun argument =>
          if argument < number then graph.typeName? argument else none
        pure (name ++ "<" ++ ", ".intercalate arguments ++ ">")
    | .nothing => pure (plainName reference.kind)
  return base ++ byrefSuffix reference
termination_by number

section Checked

variable {rows : Rows}

theorem lt_of_optionalIndex {value : Int} {target : Table} {site : Site} {found : Option Nat}
    (h : Bounds.optionalIndex rows value target site = .ok found) :
    ∀ n ∈ found, n < rows.count target := by
  unfold Bounds.optionalIndex at h
  split at h
  · obtain rfl := Except.ok.inj h
    simp
  · cases hindex : Bounds.index rows value target site with
    | error fault =>
        rw [hindex] at h
        cases h
    | ok n =>
        rw [hindex] at h
        obtain rfl := Except.ok.inj h
        rintro _ ⟨⟩
        exact (Bounds.index_eq_ok_iff.mp hindex).2

theorem lt_of_containedParameters {container : Int} {table : Table} {index : Nat}
    {found : List Nat} (h : containedParameters rows container table index = .ok found) :
    ∀ parameter ∈ found, parameter < rows.genericParameters.size := by
  unfold containedParameters at h
  split at h
  · obtain rfl := Except.ok.inj h
    simp
  · obtain ⟨_, -, h⟩ := bind_eq_ok h
    exact fun parameter hparameter => Bounds.lt_of_mem_range h hparameter

theorem lt_of_nestedLinked {range nested : List Nat}
    (h : List.Forall₂ (NestedLinked rows) range nested) :
    ∀ type ∈ nested, type < rows.types.size := by
  intro type htype
  obtain ⟨i, hi⟩ := List.mem_iff_getElem?.mp htype
  obtain ⟨_, -, raw, -, hindex⟩ := exists_getElem?_of_forall₂ h hi
  exact (Bounds.index_eq_ok_iff.mp hindex).2

theorem mem_methods_of_accessor {type : TypeDefinition} {relative : Int} {index : Nat}
    {name : String} {found : Option Nat} (h : accessor type relative index name = .ok found) :
    ∀ method ∈ found, method ∈ type.methods := by
  unfold accessor at h
  split at h
  · obtain rfl := Except.ok.inj h
    simp
  · split at h
    · next method hmethod =>
        obtain rfl := Except.ok.inj h
        rintro _ ⟨⟩
        split at hmethod
        · cases hmethod
        · exact List.mem_of_getElem? hmethod
    · cases h

theorem makeProperty_eq_ok {types : Array TypeDefinition} {index : Nat} {property : Property}
    (h : makeProperty rows types index = .ok property) :
    property.declaringType = types.findIdx? (fun type => type.properties.contains index) ∧
      ∀ method, property.getter = some method ∨ property.setter = some method →
        ∃ owner type, property.declaringType = some owner ∧ types[owner]? = some type ∧
          method ∈ type.methods := by
  unfold makeProperty at h
  obtain ⟨name, -, h⟩ := bind_eq_ok h
  dsimp only at h
  split at h
  · next type htype =>
      obtain ⟨owner, howner, htype⟩ := Option.bind_eq_some_iff.mp htype
      obtain ⟨getter, hgetter, h⟩ := bind_eq_ok h
      obtain ⟨setter, hsetter, h⟩ := bind_eq_ok h
      obtain rfl := Except.ok.inj h
      refine ⟨rfl, ?_⟩
      rintro method (rfl | rfl)
      · exact ⟨owner, type, howner, htype, mem_methods_of_accessor hgetter method rfl⟩
      · exact ⟨owner, type, howner, htype, mem_methods_of_accessor hsetter method rfl⟩
  · obtain rfl := Except.ok.inj h
    exact ⟨rfl, by simp⟩

end Checked

theorem lt_of_findIdx? {α : Type} {values : Array α} {p : α → Bool} {found : Option Nat}
    (h : found = values.findIdx? p) : ∀ index ∈ found, index < values.size := by
  rintro index hindex
  obtain rfl := Option.mem_def.mp hindex
  exact (Array.findIdx?_eq_some_iff_getElem.mp h.symm).1

section Linked

variable {rows : Rows} {links : Links} {graph : TypeGraph}

theorem lt_of_leads (hlinked : graph.Linked rows links) {index : Int} {number : Nat}
    (h : Leads rows links index number) : number < graph.references.size := by
  rw [hlinked.references]
  exact h.lt_size hlinked.valid

theorem lt_of_rangeLeads (hlinked : graph.Linked rows links) {indices : Array Int}
    {range : Except Fault (List Nat)} {numbers : List Nat}
    (h : RangeLeads rows links indices range numbers) :
    ∀ number ∈ numbers, number < graph.references.size := by
  obtain ⟨listed, -, hleads⟩ := h
  rw [hlinked.references]
  exact ListLeads.lt_size hlinked.valid hleads

theorem targetInside_of_fits (hlinked : graph.Linked rows links) {number : Nat} {role : Role}
    {target : Target} (hnumber : number < graph.references.size)
    (h : TargetFits rows links number role target) : graph.TargetInside role target := by
  cases h with
  | element h => exact .element (Nat.lt_trans h hnumber)
  | definition h => exact .definition (Nat.lt_of_lt_of_eq h hlinked.types.size.symm)
  | parameter h => exact .parameter (Nat.lt_of_lt_of_eq h hlinked.genericParameters.size.symm)
  | instantiation hindex htype _ _ =>
      rw [← hlinked.instantiations] at hindex
      exact .instantiation hindex htype
  | plain => exact .plain

theorem lt_of_uses (hlinked : graph.Linked rows links) {number used : Nat} {role : Role}
    {reference : TypeReference} (hfits : TargetFits rows links number role reference.target)
    (h : graph.Uses reference used) : used < number := by
  cases h with
  | element h =>
      rw [h] at hfits
      cases hfits with
      | element hlt => exact hlt
  | argument h hindex hnumber =>
      rw [h] at hfits
      cases hfits with
      | instantiation hindex' _ _ hsmaller =>
          rw [← hlinked.instantiations] at hindex'
          obtain rfl := Option.some.inj (hindex.symm.trans hindex')
          exact hsmaller _ hnumber

theorem typeClosed_of_linked (hlinked : graph.Linked rows links) {type : TypeDefinition}
    (htype : type ∈ graph.types) : graph.TypeClosed type := by
  obtain ⟨index, row, -, h⟩ := hlinked.types.exists_row_of_mem htype
  obtain ⟨range, -, hnested⟩ := h.nestedTypes
  refine ⟨?_, ?_, ?_, ?_, ?_, ?_, ?_, lt_of_rangeLeads hlinked h.interfaces, ?_⟩
  · rw [hlinked.types.size]
    exact lt_of_optionalIndex h.base
  · rw [hlinked.types.size]
    exact lt_of_optionalIndex h.enclosing
  · rw [hlinked.types.size]
    exact lt_of_nestedLinked hnested
  · rw [hlinked.fields.size]
    exact fun field hfield => Bounds.lt_of_mem_range h.fields hfield
  · rw [hlinked.methods.size]
    exact fun method hmethod => Bounds.lt_of_mem_range h.methods hmethod
  · rw [hlinked.properties.size]
    exact fun property hproperty => Bounds.lt_of_mem_range h.properties hproperty
  · rw [hlinked.genericParameters.size]
    exact lt_of_containedParameters h.genericParameters
  · exact fun module hmodule => hlinked.assigned type htype module hmodule

theorem methodClosed_of_linked (hlinked : graph.Linked rows links) {method : Method}
    (hmethod : method ∈ graph.methods) : graph.MethodClosed method := by
  obtain ⟨index, row, -, h⟩ := hlinked.methods.exists_row_of_mem hmethod
  obtain ⟨range, -, hparameters⟩ := h.parameters
  refine ⟨?_, lt_of_leads hlinked h.returnType, ?_, ?_⟩
  · rw [hlinked.types.size]
    exact (Bounds.index_eq_ok_iff.mp h.declaringType).2
  · intro parameter hparameter
    obtain ⟨i, hi⟩ := List.mem_iff_getElem?.mp hparameter
    obtain ⟨_, -, _, -, hmade⟩ := exists_getElem?_of_forall₂ hparameters hi
    exact lt_of_leads hlinked hmade.type
  · rw [hlinked.genericParameters.size]
    exact lt_of_containedParameters h.genericParameters

theorem parameterClosed_of_linked (hlinked : graph.Linked rows links)
    {parameter : GenericParameter} (hparameter : parameter ∈ graph.genericParameters) :
    graph.ParameterClosed parameter := by
  obtain ⟨index, row, -, h⟩ := hlinked.genericParameters.exists_row_of_mem hparameter
  refine ⟨?_, lt_of_rangeLeads hlinked h.constraints⟩
  obtain ⟨_, owning, -, -, hmethod, howner⟩ := h.owner
  have hlt := (Bounds.index_eq_ok_iff.mp howner).2
  rw [hmethod, hlinked.methods.size, hlinked.types.size]
  cases hkind : owning.isMethod with
  | false =>
      rw [hkind] at hlt
      exact hlt
  | true =>
      rw [hkind] at hlt
      exact hlt

theorem exists_instantiation_of_spec (hlinked : graph.Linked rows links) {spec : Nat}
    (hspec : spec ∈ graph.methodSpecs) : ∃ instantiation,
      graph.instantiations[spec]? = some instantiation ∧ instantiation.isMethod = true := by
  obtain ⟨index, row, -, h⟩ := hlinked.methodSpecs.exists_row_of_mem hspec
  obtain ⟨_, _, _, -, -, -, hfound⟩ := h
  rw [← hlinked.instantiations] at hfound
  exact ⟨_, hfound, rfl⟩

theorem closed_of_linked (hlinked : graph.Linked rows links) : Closed graph where
  types := fun type htype => typeClosed_of_linked hlinked htype
  modules := by
    intro module hmodule type htype
    obtain ⟨index, row, -, h⟩ := hlinked.modules.exists_row_of_mem hmodule
    rw [hlinked.types.size]
    exact Bounds.lt_of_mem_range h htype
  methods := fun method hmethod => methodClosed_of_linked hlinked hmethod
  fields := by
    intro field hfield
    obtain ⟨index, row, -, h⟩ := hlinked.fields.exists_row_of_mem hfield
    exact ⟨lt_of_leads hlinked h.type, lt_of_findIdx? h.declaringType⟩
  properties := by
    intro property hproperty
    obtain ⟨index, row, -, h⟩ := hlinked.properties.exists_row_of_mem hproperty
    obtain ⟨hdeclaring, haccessors⟩ := makeProperty_eq_ok h
    exact ⟨lt_of_findIdx? hdeclaring, haccessors⟩
  genericParameters := fun parameter hparameter => parameterClosed_of_linked hlinked hparameter
  references := by
    intro reference hreference
    obtain ⟨number, hnumber⟩ := Array.mem_iff_getElem?.mp hreference
    obtain ⟨hlt, -⟩ := Array.getElem?_eq_some_iff.mp hnumber
    rw [hlinked.references] at hnumber
    exact targetInside_of_fits hlinked hlt (hlinked.valid.references hnumber)
  descending := by
    intro number reference hreference used hused
    rw [hlinked.references] at hreference
    exact lt_of_uses hlinked (hlinked.valid.references hreference) hused
  instantiations := by
    intro instantiation hinstantiation
    obtain ⟨number, hnumber⟩ := Array.mem_iff_getElem?.mp hinstantiation
    rw [hlinked.instantiations] at hnumber
    have hfits := hlinked.valid.instantiations hnumber
    refine ⟨?_, ?_, ?_⟩
    · rw [hlinked.methods.size, hlinked.types.size]
      exact hfits.definition
    · rw [hlinked.references]
      exact hfits.classArguments
    · rw [hlinked.references]
      exact hfits.arguments
  methodSpecs := fun spec hspec => exists_instantiation_of_spec hlinked hspec

end Linked

section Lookup

variable {graph : TypeGraph}

theorem methodName?_of_closed (hclosed : Closed graph) {index : Nat}
    (h : index < graph.methods.size) : graph.methodName? index = some (graph.methodName index) := by
  have hmethod : graph.methods[index]? = some graph.methods[index] := Array.getElem?_eq_getElem h
  have hdeclaring := (hclosed.methods _ (Array.getElem_mem h)).declaringType
  have htype := Array.getElem?_eq_getElem hdeclaring
  simp [methodName?, methodName, hmethod, htype]

theorem listedMethods_eq_flatMap {module : Module} {types : List TypeDefinition}
    (h : module.types.mapM (fun type => graph.types[type]?) = some types) :
    graph.listedMethods module = types.flatMap TypeDefinition.methods := by
  unfold listedMethods
  rw [mapM_eq_some_iff] at h
  generalize module.types = indices at h ⊢
  induction h with
  | nil => rfl
  | cons hfirst _ ih => simp only [List.flatMap_cons, hfirst, Option.map_some, Option.getD_some, ih]

theorem lt_of_mem_listedMethods (hclosed : Closed graph) {module : Module} {method : Nat}
    (h : method ∈ graph.listedMethods module) : method < graph.methods.size := by
  obtain ⟨index, -, hmethod⟩ := List.mem_flatMap.mp h
  cases htype : graph.types[index]? with
  | none =>
      rw [htype] at hmethod
      cases hmethod
  | some type =>
      rw [htype] at hmethod
      exact (hclosed.types type (Array.mem_of_getElem? htype)).methods method hmethod

theorem moduleMethods?_of_closed (hclosed : Closed graph) {index : Nat}
    (h : index < graph.modules.size) :
    graph.moduleMethods? index = some (graph.moduleMethods index) := by
  have hmodule : graph.modules[index]? = some graph.modules[index] := Array.getElem?_eq_getElem h
  have hrange := hclosed.modules _ (Array.getElem_mem h)
  obtain ⟨types, htypes⟩ := exists_mapM_eq_some fun type htype =>
    ⟨_, Array.getElem?_eq_getElem (hrange type htype)⟩
  have hmem : ∀ type ∈ types, type ∈ graph.types := by
    intro type htype
    obtain ⟨i, hi⟩ := List.mem_iff_getElem?.mp htype
    obtain ⟨_, -, hvalue⟩ := exists_getElem?_of_forall₂ (mapM_eq_some_iff.mp htypes) hi
    exact Array.mem_of_getElem? hvalue
  have hlisted := listedMethods_eq_flatMap htypes
  obtain ⟨methods, hmethods⟩ : ∃ methods,
      (types.flatMap TypeDefinition.methods).mapM (fun method => graph.methods[method]?) =
        some methods := by
    refine exists_mapM_eq_some fun method hmethod => ?_
    obtain ⟨type, htype, hmethod⟩ := List.mem_flatMap.mp hmethod
    exact ⟨_, Array.getElem?_eq_getElem ((hclosed.types type (hmem type htype)).methods _ hmethod)⟩
  have hdefault : graph.moduleMethods index = graph.methodsOf graph.modules[index] := by
    change ((graph.modules[index]?).map graph.methodsOf).getD [] = _
    rw [hmodule]
    rfl
  rw [hdefault, methodsOf, hlisted]
  simp [moduleMethods?, hmodule, htypes, hmethods]

theorem definitionName?_of_lt {type : Nat} (h : type < graph.types.size) :
    graph.definitionName? type = some (graph.definitionName type) := by
  simp [definitionName?, definitionName, h]

end Lookup

end TypeAtlas.TypeGraph
