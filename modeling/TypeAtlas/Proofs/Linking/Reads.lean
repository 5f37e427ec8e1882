import TypeAtlas.Proofs.Linking.Cycles

namespace TypeAtlas

open Links TypeGraph

/-- A place stands in the range with a start and a count. -/
def InRange (start count : Int) (place : Nat) : Prop :=
  start ≤ place ∧ (place : Int) < start + count

/-- The table in which the data of a row with some role counts. -/
def Role.table? : Role → Option Table
  | element => some .typeReferences
  | definition => some .typeDefinitions
  | parameter => some .genericParameters
  | instantiation => some .genericClasses
  | plain => none

namespace Rows

/-- A row of the type references that a definition uses, directly or through other rows. -/
def Used (rows : Rows) (index : Int) : Prop :=
  ∃ first, rows.Uses first ∧ Relation.ReflTransGen rows.Refers first index

theorem Used.tail {rows : Rows} {index other : Int} (h : rows.Used index)
    (hrefers : rows.Refers index other) : rows.Used other := by
  obtain ⟨first, hfirst, hreach⟩ := h
  exact ⟨first, hfirst, hreach.tail hrefers⟩

/-- A generic class that a used row is an instance of. -/
def UsesClass (rows : Rows) (index : Int) : Prop :=
  ∃ user row, rows.Used user ∧ valueAt? rows.references user = some row ∧
    Kind.role row.kind = .instantiation ∧ row.data = index

/-- An argument list that a method spec or a used generic class names. -/
inductive UsesList (rows : Rows) : Int → Prop
  | classArguments {row : MethodSpecRow} (hrow : row ∈ rows.methodSpecs) :
      UsesList rows row.classArguments
  | methodArguments {row : MethodSpecRow} (hrow : row ∈ rows.methodSpecs) :
      UsesList rows row.methodArguments
  | genericClass {index : Int} {row : GenericClassRow} (hused : rows.UsesClass index)
      (hrow : valueAt? rows.genericClasses index = some row) : UsesList rows row.arguments

/-- An index that linking reads, the table that it counts in, and the field that holds it. An index
that stands for nothing is not read. -/
inductive ReadsIndex (rows : Rows) : Int → Table → Site → Prop
  | base {index : Nat} {row : TypeRow} (hrow : rows.types[index]? = some row)
      (hsome : row.base ≠ Bounds.noIndex) :
      ReadsIndex rows row.base .typeDefinitions ⟨.typeDefinitions, index, "parent_index"⟩
  | enclosing {index : Nat} {row : TypeRow} (hrow : rows.types[index]? = some row)
      (hsome : row.enclosing ≠ Bounds.noIndex) :
      ReadsIndex rows row.enclosing .typeDefinitions
        ⟨.typeDefinitions, index, "declaring_type_index"⟩
  | nestedType {index place : Nat} {row : TypeRow} {value : Int}
      (hrow : rows.types[index]? = some row)
      (hplace : InRange row.nestedStart row.nestedCount place)
      (hvalue : rows.nestedTypes[place]? = some value) :
      ReadsIndex rows value .typeDefinitions ⟨.nestedTypes, place, "value"⟩
  | interface {index place : Nat} {row : TypeRow} {value : Int}
      (hrow : rows.types[index]? = some row)
      (hplace : InRange row.interfaceStart row.interfaceCount place)
      (hvalue : rows.interfaces[place]? = some value) :
      ReadsIndex rows value .typeReferences ⟨.interfaces, place, "value"⟩
  | typeContainer {index : Nat} {row : TypeRow} (hrow : rows.types[index]? = some row)
      (hsome : row.genericContainer ≠ Bounds.noIndex) :
      ReadsIndex rows row.genericContainer .genericContainers
        ⟨.typeDefinitions, index, "generic_container_index"⟩
  | container {index : Nat} {row : GenericParameterRow}
      (hrow : rows.genericParameters[index]? = some row) :
      ReadsIndex rows row.owner .genericContainers ⟨.genericParameters, index, "owner_index"⟩
  | owner {index container : Nat} {row : GenericParameterRow} {owning : GenericContainerRow}
      (hrow : rows.genericParameters[index]? = some row) (howner : row.owner = container)
      (howning : rows.genericContainers[container]? = some owning) :
      ReadsIndex rows owning.owner (if owning.isMethod then .methods else .typeDefinitions)
        ⟨.genericContainers, container, "owner_index"⟩
  | constraint {index place : Nat} {row : GenericParameterRow} {value : Int}
      (hrow : rows.genericParameters[index]? = some row)
      (hplace : InRange row.constraintStart row.constraintCount place)
      (hvalue : rows.constraints[place]? = some value) :
      ReadsIndex rows value .typeReferences ⟨.genericParameterConstraints, place, "value"⟩
  | declaringType {index : Nat} {row : MethodRow} (hrow : rows.methods[index]? = some row) :
      ReadsIndex rows row.declaringType .typeDefinitions ⟨.methods, index, "declaring_type"⟩
  | parameter {index place : Nat} {row : MethodRow} {parameter : ParameterRow}
      (hrow : rows.methods[index]? = some row)
      (hplace : InRange row.parameterStart row.parameterCount place)
      (hparameter : rows.parameters[place]? = some parameter) :
      ReadsIndex rows parameter.type .typeReferences ⟨.parameters, place, "type_index"⟩
  | returned {index : Nat} {row : MethodRow} (hrow : rows.methods[index]? = some row) :
      ReadsIndex rows row.returnType .typeReferences ⟨.methods, index, "return_type"⟩
  | methodContainer {index : Nat} {row : MethodRow} (hrow : rows.methods[index]? = some row)
      (hsome : row.genericContainer ≠ Bounds.noIndex) :
      ReadsIndex rows row.genericContainer .genericContainers
        ⟨.methods, index, "generic_container_index"⟩
  | field {index : Nat} {row : FieldRow} (hrow : rows.fields[index]? = some row) :
      ReadsIndex rows row.type .typeReferences ⟨.fields, index, "type_index"⟩
  | defaultField {index : Nat} {row : DefaultRow} (hrow : rows.defaults[index]? = some row) :
      ReadsIndex rows row.field .fields ⟨.fieldDefaultValues, index, "field_index"⟩
  | defaultType {index : Nat} {row : DefaultRow} (hrow : rows.defaults[index]? = some row) :
      ReadsIndex rows row.type .typeReferences ⟨.fieldDefaultValues, index, "type_index"⟩
  | specMethod {index : Nat} {row : MethodSpecRow} (hrow : rows.methodSpecs[index]? = some row) :
      ReadsIndex rows row.method .methods ⟨.methodSpecs, index, "method_definition_index"⟩
  | specClassList {index : Nat} {row : MethodSpecRow} (hrow : rows.methodSpecs[index]? = some row)
      (hsome : row.classArguments ≠ Bounds.noIndex) :
      ReadsIndex rows row.classArguments .genericInsts ⟨.methodSpecs, index, "inst_index"⟩
  | specMethodList {index : Nat} {row : MethodSpecRow}
      (hrow : rows.methodSpecs[index]? = some row)
      (hsome : row.methodArguments ≠ Bounds.noIndex) :
      ReadsIndex rows row.methodArguments .genericInsts ⟨.methodSpecs, index, "inst_index"⟩
  | data {index : Nat} {row : ReferenceRow} {target : Table} (hused : rows.Used index)
      (hrow : rows.references[index]? = some row)
      (hrole : (Kind.role row.kind).table? = some target) :
      ReadsIndex rows row.data target ⟨.typeReferences, index, "data"⟩
  | definition {index : Nat} {row : GenericClassRow} (hused : rows.UsesClass index)
      (hrow : rows.genericClasses[index]? = some row) :
      ReadsIndex rows row.definition .typeDefinitions
        ⟨.genericClasses, index, "type_definition_index"⟩
  | classList {index : Nat} {row : GenericClassRow} (hused : rows.UsesClass index)
      (hrow : rows.genericClasses[index]? = some row)
      (hsome : row.arguments ≠ Bounds.noIndex) :
      ReadsIndex rows row.arguments .genericInsts ⟨.genericClasses, index, "inst_index"⟩
  | argument {list place : Nat} {row : GenericInstRow} {value : Int} (hused : rows.UsesList list)
      (hrow : rows.genericInsts[list]? = some row)
      (hplace : InRange row.argumentStart row.argumentCount place)
      (hvalue : rows.genericArguments[place]? = some value) :
      ReadsIndex rows value .typeReferences ⟨.genericArguments, place, "value"⟩

/-- A range that linking reads by its start and count, the table that it lies in, and the field that
holds its start. -/
inductive ReadsRange (rows : Rows) : (start count : Int) → Table → Site → Prop
  | fields {index : Nat} {row : TypeRow} (hrow : rows.types[index]? = some row) :
      ReadsRange rows row.fieldStart row.fieldCount .fields
        ⟨.typeDefinitions, index, "field_start"⟩
  | methods {index : Nat} {row : TypeRow} (hrow : rows.types[index]? = some row) :
      ReadsRange rows row.methodStart row.methodCount .methods
        ⟨.typeDefinitions, index, "method_start"⟩
  | properties {index : Nat} {row : TypeRow} (hrow : rows.types[index]? = some row) :
      ReadsRange rows row.propertyStart row.propertyCount .properties
        ⟨.typeDefinitions, index, "property_start"⟩
  | nestedTypes {index : Nat} {row : TypeRow} (hrow : rows.types[index]? = some row) :
      ReadsRange rows row.nestedStart row.nestedCount .nestedTypes
        ⟨.typeDefinitions, index, "nested_types_start"⟩
  | interfaces {index : Nat} {row : TypeRow} (hrow : rows.types[index]? = some row) :
      ReadsRange rows row.interfaceStart row.interfaceCount .interfaces
        ⟨.typeDefinitions, index, "interfaces_start"⟩
  | moduleTypes {index : Nat} {row : ImageRow} (hrow : rows.images[index]? = some row) :
      ReadsRange rows row.typeStart row.typeCount .typeDefinitions ⟨.images, index, "type_start"⟩
  | parameters {index : Nat} {row : MethodRow} (hrow : rows.methods[index]? = some row) :
      ReadsRange rows row.parameterStart row.parameterCount .parameters
        ⟨.methods, index, "parameter_start"⟩
  | typeContainer {index container : Nat} {row : TypeRow} {containing : GenericContainerRow}
      (hrow : rows.types[index]? = some row) (hcontainer : row.genericContainer = container)
      (hcontaining : rows.genericContainers[container]? = some containing) :
      ReadsRange rows containing.parameterStart containing.parameterCount .genericParameters
        ⟨.genericContainers, container, "generic_parameter_start"⟩
  | methodContainer {index container : Nat} {row : MethodRow} {containing : GenericContainerRow}
      (hrow : rows.methods[index]? = some row) (hcontainer : row.genericContainer = container)
      (hcontaining : rows.genericContainers[container]? = some containing) :
      ReadsRange rows containing.parameterStart containing.parameterCount .genericParameters
        ⟨.genericContainers, container, "generic_parameter_start"⟩
  | constraints {index : Nat} {row : GenericParameterRow}
      (hrow : rows.genericParameters[index]? = some row) :
      ReadsRange rows row.constraintStart row.constraintCount .genericParameterConstraints
        ⟨.genericParameters, index, "constraints_start"⟩
  | arguments {list : Nat} {row : GenericInstRow} (hused : rows.UsesList list)
      (hrow : rows.genericInsts[list]? = some row) :
      ReadsRange rows row.argumentStart row.argumentCount .genericArguments
        ⟨.genericInsts, list, "arguments"⟩

end Rows

section Checks

variable {rows : Rows} {start count : Int} {target : Table} {site : Site} {range : List Nat}

/-- A range counts nothing, or it starts and ends inside of its table. -/
def Rows.Meets (rows : Rows) (start count : Int) (target : Table) : Prop :=
  count = 0 ∨ 0 ≤ start ∧ start + count ≤ rows.count target

theorem Bounds.range_eq_ok_iff : Bounds.range rows start count target site = .ok range ↔
    rows.Meets start count target ∧ range = List.range' start.toNat count.toNat := by
  unfold Bounds.range Rows.Meets
  split
  · next hcount =>
      subst hcount
      rw [Except.ok.injEq, eq_comm (a := [])]
      exact ⟨fun h => ⟨Or.inl rfl, h⟩, And.right⟩
  · split
    · next houtside =>
        simp only [reduceCtorEq, false_iff]
        omega
    · next hinside =>
        rw [Except.ok.injEq, eq_comm (a := range)]
        exact ⟨fun h => ⟨Or.inr (by omega), h⟩, And.right⟩

theorem Bounds.range_eq_error (h : ¬rows.Meets start count target) :
    Bounds.range rows start count target site =
      .error (Bounds.rangeOutside start count target (rows.count target) site) := by
  unfold Rows.Meets at h
  rw [Bounds.range, if_neg (by omega), if_pos (by omega)]

theorem inRange_of_mem_range (h : Bounds.range rows start count target site = .ok range) {i : Nat}
    (hi : i ∈ range) : InRange start count i := by
  obtain ⟨hmeets, rfl⟩ := Bounds.range_eq_ok_iff.mp h
  rw [List.mem_range'_1] at hi
  unfold InRange
  unfold Rows.Meets at hmeets
  omega

theorem valueAt?_eq_some_iff {α : Type} {values : Array α} {index : Int} {value : α} :
    valueAt? values index = some value ↔ ∃ n : Nat, index = n ∧ values[n]? = some value := by
  cases index with
  | ofNat n =>
      constructor
      · exact fun h => ⟨n, rfl, h⟩
      · rintro ⟨m, hm, h⟩
        obtain rfl := Int.ofNat.inj hm
        exact h
  | negSucc n =>
      constructor
      · exact nofun
      · rintro ⟨m, hm, -⟩
        cases hm

theorem lists_of_inRange {α : Type} {values : Array α} {value : α} {place : Nat}
    (hplace : InRange start count place) (hvalue : values[place]? = some value) :
    Lists values start count value := by
  unfold InRange at hplace
  refine ⟨(place - start).toNat, by omega, ?_⟩
  have hat : start + ((place - start).toNat : Int) = place := by omega
  rw [hat]
  exact hvalue

theorem exists_value_of_range {α : Type} (values : Array α) {range : List Nat}
    (h : Bounds.range rows start count target site = .ok range)
    (hsize : rows.count target = values.size) {place : Nat} (hplace : place ∈ range) :
    ∃ value, values[place]? = some value ∧ InRange start count place ∧
      Lists values start count value := by
  have hlt : place < values.size := Nat.lt_of_lt_of_eq (Bounds.lt_of_mem_range h hplace) hsize
  have hvalue := Array.getElem?_eq_getElem hlt
  have hinside := inRange_of_mem_range h hplace
  exact ⟨_, hvalue, hinside, lists_of_inRange hinside hvalue⟩

end Checks

section Linked

variable {rows : Rows} {links : Links} {graph : TypeGraph} {index : Int}

theorem exists_leads_of_used (hlinked : graph.Linked rows links) (h : rows.Used index) :
    ∃ number, Leads rows links index number := by
  obtain ⟨first, hfirst, hreach⟩ := h
  obtain ⟨number, hnumber⟩ := exists_leads_of_uses hlinked hfirst
  exact exists_leads_of_reflTransGen hlinked.valid hnumber hreach

theorem exists_instantiation_of_used (hlinked : graph.Linked rows links) (h : rows.Used index)
    {row : ReferenceRow} (hrow : valueAt? rows.references index = some row)
    (hrole : Kind.role row.kind = .instantiation) :
    ∃ number target, Leads rows links index number ∧
      links.references.items[number]? = some (row.toReference target) ∧
        TargetLeads rows links .instantiation row.data target := by
  obtain ⟨number, hleads⟩ := exists_leads_of_used hlinked h
  obtain ⟨i, rfl, hlt, hnumber⟩ := hleads
  obtain ⟨row', target, hrow', hreference, htarget⟩ := hlinked.valid.linked hnumber
  obtain rfl := Option.some.inj (hrow'.symm.trans hrow)
  exact ⟨number, target, ⟨i, rfl, hlt, hnumber⟩, hreference, hrole ▸ htarget⟩

theorem exists_instLeads_of_usesList (hlinked : graph.Linked rows links)
    (h : rows.UsesList index) : ∃ numbers, InstLeads rows links index numbers := by
  cases h with
  | classArguments hrow =>
      obtain ⟨i, hi⟩ := Array.mem_iff_getElem?.mp hrow
      obtain ⟨spec, hspec⟩ := hlinked.methodSpecs.exists_value hi
      obtain ⟨_, _, _, _, hclass, _, _⟩ := hlinked.methodSpecs.related hi hspec
      exact ⟨_, hclass⟩
  | methodArguments hrow =>
      obtain ⟨i, hi⟩ := Array.mem_iff_getElem?.mp hrow
      obtain ⟨spec, hspec⟩ := hlinked.methodSpecs.exists_value hi
      obtain ⟨_, _, _, _, _, hmethod, _⟩ := hlinked.methodSpecs.related hi hspec
      exact ⟨_, hmethod⟩
  | genericClass hused hrow =>
      obtain ⟨user, row, huser, hreference, hrole, rfl⟩ := hused
      obtain ⟨_, _, _, _, htarget⟩ := exists_instantiation_of_used hlinked huser hreference hrole
      generalize row.data = data at hrow htarget
      cases htarget with
      | instantiation hclass _ _ harguments _ =>
          obtain rfl := Option.some.inj (hclass.symm.trans hrow)
          exact ⟨_, harguments⟩

end Linked

end TypeAtlas
