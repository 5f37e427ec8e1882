import TypeAtlas.Graph.Build
import TypeAtlas.Proofs.Linking.References
import TypeAtlas.Proofs.Outcome

namespace TypeAtlas.TypeGraph

open Links Link

variable {rows : Rows} {links : Links}

/-- A range has passed its check, and the rows that it lists lead to some numbers. -/
def RangeLeads (rows : Rows) (links : Links) (indices : Array Int)
    (range : Except Fault (List Nat)) (numbers : List Nat) : Prop :=
  ∃ listed, range = .ok listed ∧ ListLeads rows links indices listed numbers

def NestedLinked (rows : Rows) (i nested : Nat) : Prop :=
  ∃ raw, rows.nestedTypes[i]? = some raw ∧
    Bounds.index rows raw .typeDefinitions ⟨.nestedTypes, i, "value"⟩ = .ok nested

/-- A type is made from its row. -/
structure TypeLinked (rows : Rows) (index : Nat) (row : TypeRow) (type : TypeDefinition)
    (links : Links) : Prop where
  base : Bounds.optionalIndex rows row.base .typeDefinitions
    ⟨.typeDefinitions, index, "parent_index"⟩ = .ok type.base
  enclosing : Bounds.optionalIndex rows row.enclosing .typeDefinitions
    ⟨.typeDefinitions, index, "declaring_type_index"⟩ = .ok type.enclosing
  fields : Bounds.range rows row.fieldStart row.fieldCount .fields
    ⟨.typeDefinitions, index, "field_start"⟩ = .ok type.fields
  methods : Bounds.range rows row.methodStart row.methodCount .methods
    ⟨.typeDefinitions, index, "method_start"⟩ = .ok type.methods
  properties : Bounds.range rows row.propertyStart row.propertyCount .properties
    ⟨.typeDefinitions, index, "property_start"⟩ = .ok type.properties
  nestedTypes : ∃ range, Bounds.range rows row.nestedStart row.nestedCount .nestedTypes
      ⟨.typeDefinitions, index, "nested_types_start"⟩ = .ok range ∧
    List.Forall₂ (NestedLinked rows) range type.nestedTypes
  interfaces : RangeLeads rows links rows.interfaces
    (Bounds.range rows row.interfaceStart row.interfaceCount .interfaces
      ⟨.typeDefinitions, index, "interfaces_start"⟩) type.interfaces
  genericParameters :
    containedParameters rows row.genericContainer .typeDefinitions index =
      .ok type.genericParameters

/-- A module covers the range of types of its row. -/
def ModuleLinked (rows : Rows) (index : Nat) (row : ImageRow) (module : Module) : Prop :=
  Bounds.range rows row.typeStart row.typeCount .typeDefinitions
    ⟨.images, index, "type_start"⟩ = .ok module.types

/-- A generic parameter is made from its row and the row of its container. -/
structure GenericParameterLinked (rows : Rows) (index : Nat) (row : GenericParameterRow)
    (parameter : GenericParameter) (links : Links) : Prop where
  owner : ∃ container owning,
    Bounds.index rows row.owner .genericContainers ⟨.genericParameters, index, "owner_index"⟩ =
        .ok container ∧
      rows.genericContainers[container]? = some owning ∧
      parameter.isMethodOwner = owning.isMethod ∧
      Bounds.index rows owning.owner (if owning.isMethod then .methods else .typeDefinitions)
        ⟨.genericContainers, container, "owner_index"⟩ = .ok parameter.owner
  constraints : RangeLeads rows links rows.constraints
    (Bounds.range rows row.constraintStart row.constraintCount .genericParameterConstraints
      ⟨.genericParameters, index, "constraints_start"⟩) parameter.constraints

/-- A parameter is made from its row. -/
structure ParameterMade (rows : Rows) (row : ParameterRow) (parameter : Parameter)
    (links : Links) : Prop where
  name : rows.strings.get row.name = .ok parameter.name
  type : Leads rows links row.type parameter.type
  token : parameter.token = row.token

def ParameterLinked (rows : Rows) (index : Nat) (parameter : Parameter) (links : Links) : Prop :=
  ∃ row, rows.parameters[index]? = some row ∧ ParameterMade rows row parameter links

/-- A method is made from its row and the rows of its parameters. -/
structure MethodLinked (rows : Rows) (index : Nat) (row : MethodRow) (method : Method)
    (links : Links) : Prop where
  declaringType : Bounds.index rows row.declaringType .typeDefinitions
    ⟨.methods, index, "declaring_type"⟩ = .ok method.declaringType
  parameters : ∃ range, Bounds.range rows row.parameterStart row.parameterCount .parameters
      ⟨.methods, index, "parameter_start"⟩ = .ok range ∧
    List.Forall₂ (fun i parameter => ParameterLinked rows i parameter links) range
      method.parameters
  returnType : Leads rows links row.returnType method.returnType
  genericParameters :
    containedParameters rows row.genericContainer .methods index = .ok method.genericParameters

/-- A field is made from its row; the first type that lists it declares it. -/
structure FieldLinked (rows : Rows) (types : Array TypeDefinition) (index : Nat) (row : FieldRow)
    (field : FieldDefinition) (links : Links) : Prop where
  type : Leads rows links row.type field.type
  declaringType :
    field.declaringType = types.findIdx? fun type => type.fields.contains index

/-- The instantiation of a method spec binds its method to the arguments of both its lists. -/
def MethodSpecLinked (rows : Rows) (index : Nat) (row : MethodSpecRow) (number : Nat)
    (links : Links) : Prop :=
  ∃ method classArguments arguments,
    Bounds.index rows row.method .methods ⟨.methodSpecs, index, "method_definition_index"⟩ =
        .ok method ∧
      InstLeads rows links row.classArguments classArguments ∧
      InstLeads rows links row.methodArguments arguments ∧
      links.instantiations.items[number]? = some ⟨method, true, classArguments, arguments⟩

section Lasting

theorem RangeLeads.mono {before after : Links} {indices : Array Int}
    {range : Except Fault (List Nat)} {numbers : List Nat} (hgrow : before.Extends after)
    (h : RangeLeads rows before indices range numbers) :
    RangeLeads rows after indices range numbers := by
  obtain ⟨listed, hlisted, hleads⟩ := h
  exact ⟨listed, hlisted, hleads.mono hgrow⟩

theorem TypeLinked.lasting (index : Nat) (row : TypeRow) (type : TypeDefinition) :
    Lasting (TypeLinked rows index row type) := by
  intro before after hgrow h
  exact { h with interfaces := h.interfaces.mono hgrow }

theorem GenericParameterLinked.lasting (index : Nat) (row : GenericParameterRow)
    (parameter : GenericParameter) :
    Lasting (GenericParameterLinked rows index row parameter) := by
  intro before after hgrow h
  exact { h with constraints := h.constraints.mono hgrow }

theorem ParameterLinked.lasting (index : Nat) (parameter : Parameter) :
    Lasting (ParameterLinked rows index parameter) := by
  rintro before after hgrow ⟨row, hrow, hmade⟩
  exact ⟨row, hrow, { hmade with type := hmade.type.mono hgrow }⟩

theorem MethodLinked.lasting (index : Nat) (row : MethodRow) (method : Method) :
    Lasting (MethodLinked rows index row method) := by
  intro before after hgrow h
  obtain ⟨range, hrange, hparameters⟩ := h.parameters
  have hlast := hparameters.imp fun i parameter => ParameterLinked.lasting i parameter hgrow
  exact { h with
    parameters := ⟨range, hrange, hlast⟩
    returnType := h.returnType.mono hgrow }

theorem FieldLinked.lasting {types : Array TypeDefinition} (index : Nat) (row : FieldRow)
    (field : FieldDefinition) : Lasting (FieldLinked rows types index row field) := by
  intro before after hgrow h
  exact { h with type := h.type.mono hgrow }

theorem MethodSpecLinked.lasting (index : Nat) (row : MethodSpecRow) (number : Nat) :
    Lasting (MethodSpecLinked rows index row number) := by
  rintro before after hgrow ⟨method, classArguments, arguments, hmethod, hclass, hown, hnumber⟩
  exact ⟨method, classArguments, arguments, hmethod, hclass.mono hgrow, hown.mono hgrow,
    hgrow.instantiations hnumber⟩

end Lasting

section Rows

variable {α β : Type}

/-- There is a value for each row, which stands in some relation to it. -/
structure MadeFrom (source : Array α) (made : Array β) (relation : Nat → α → β → Prop) :
    Prop where
  size : made.size = source.size
  related : ∀ {index : Nat} {row : α} {value : β}, source[index]? = some row →
    made[index]? = some value → relation index row value

theorem MadeFrom.imp {source : Array α} {made : Array β} {relation relation' : Nat → α → β → Prop}
    (h : MadeFrom source made relation)
    (himp : ∀ index row value, relation index row value → relation' index row value) :
    MadeFrom source made relation' :=
  ⟨h.size, fun hrow hvalue => himp _ _ _ (h.related hrow hvalue)⟩

theorem MadeFrom.exists_row {source : Array α} {made : Array β}
    {relation : Nat → α → β → Prop} (h : MadeFrom source made relation) {index : Nat} {value : β}
    (hvalue : made[index]? = some value) :
    ∃ row, source[index]? = some row ∧ relation index row value := by
  obtain ⟨hlt, -⟩ := Array.getElem?_eq_some_iff.mp hvalue
  have hrow := Array.getElem?_eq_getElem (h.size ▸ hlt : index < source.size)
  exact ⟨_, hrow, h.related hrow hvalue⟩

theorem MadeFrom.exists_value {source : Array α} {made : Array β}
    {relation : Nat → α → β → Prop} (h : MadeFrom source made relation) {index : Nat} {row : α}
    (hrow : source[index]? = some row) : ∃ value, made[index]? = some value := by
  obtain ⟨hlt, -⟩ := Array.getElem?_eq_some_iff.mp hrow
  exact ⟨_, Array.getElem?_eq_getElem (h.size ▸ hlt : index < made.size)⟩

theorem MadeFrom.exists_row_of_mem {source : Array α} {made : Array β}
    {relation : Nat → α → β → Prop} (h : MadeFrom source made relation) {value : β}
    (hvalue : value ∈ made) :
    ∃ index row, source[index]? = some row ∧ relation index row value := by
  obtain ⟨index, hindex⟩ := Array.mem_iff_getElem?.mp hvalue
  obtain ⟨row, hrow, hrelation⟩ := h.exists_row hindex
  exact ⟨index, row, hrow, hrelation⟩

theorem mapRows_ensures {make : Nat → α → Link β} {post : Nat → α → β → Links → Prop}
    (hlasting : ∀ index row value, Lasting (post index row value))
    (hmake : ∀ {links : Links} (index : Nat) (row : α), Valid rows links →
      Ensures rows links (make index row) (post index row))
    (start : Nat) (items : List α) (hvalid : Valid rows links) :
    Ensures rows links (mapRows make start items) fun made after =>
      made.length = items.length ∧ ∀ {offset : Nat} {row : α} {value : β},
        items[offset]? = some row → made[offset]? = some value →
          post (start + offset) row value after := by
  induction items generalizing start links with
  | nil => exact .pure hvalid ⟨rfl, by simp⟩
  | cons item items ih =>
      refine .bind (hmake start item hvalid) ?_
      intro first after _ hvalid' hfirst
      refine .bind (ih (start + 1) hvalid') ?_
      rintro rest last hgrow hvalid'' ⟨hlength, hrest⟩
      refine .pure hvalid'' ⟨by simp [hlength], ?_⟩
      intro offset row value hrow hvalue
      cases offset with
      | zero =>
          obtain rfl := Option.some.inj hrow
          obtain rfl := Option.some.inj hvalue
          exact hlasting start _ _ hgrow hfirst
      | succ offset =>
          have hpost := hrest hrow hvalue
          rwa [Nat.add_assoc, Nat.add_comm 1] at hpost

theorem forRows_ensures {source : Array α} {make : Nat → α → Link β}
    {post : Nat → α → β → Links → Prop}
    (hlasting : ∀ index row value, Lasting (post index row value))
    (hmake : ∀ {links : Links} (index : Nat) (row : α), Valid rows links →
      Ensures rows links (make index row) (post index row)) (hvalid : Valid rows links) :
    Ensures rows links (forRows source make) fun made after =>
      MadeFrom source made fun index row value => post index row value after := by
  refine .bind (mapRows_ensures hlasting hmake 0 source.toList hvalid) ?_
  rintro made after _ hvalid' ⟨hlength, hmade⟩
  refine .pure hvalid' ⟨by simpa using hlength, ?_⟩
  intro index row value hrow hvalue
  have hpost := hmade (by simpa using hrow) (by simpa using hvalue)
  rwa [Nat.zero_add] at hpost

end Rows

section Makers

theorem listedReferences_ensures {indices : Array Int} {table : Table}
    {result : Except Fault (List Nat)} {range : List Nat} (hvalid : Valid rows links)
    (hresult : result = .ok range) (hrange : ∀ i ∈ range, i < indices.size) :
    Ensures rows links (listedReferences rows indices table range) fun numbers after =>
      RangeLeads rows after indices result numbers := by
  refine (mapM_ensures reference_ensures hvalid hrange).imp ?_
  intro numbers after _ _ hleads
  exact ⟨range, hresult, hleads⟩

theorem nestedTypes_ensures {range : List Nat} (hvalid : Valid rows links)
    (hrange : ∀ i ∈ range, i < rows.nestedTypes.size) :
    Ensures rows links
      (range.mapM fun i => liftM (Bounds.index rows ((rows.nestedTypes[i]?).getD Bounds.noIndex)
        .typeDefinitions ⟨.nestedTypes, i, "value"⟩))
      fun nested _ => List.Forall₂ (NestedLinked rows) range nested := by
  refine .mapM (fun i type before after _ h => h) ?_ hvalid
  intro i hi links hvalid
  obtain ⟨raw, hraw⟩ : ∃ raw, rows.nestedTypes[i]? = some raw :=
    ⟨_, Array.getElem?_eq_getElem (hrange i hi)⟩
  refine .lift hvalid fun nested hnested => ?_
  rw [hraw] at hnested
  exact ⟨raw, hraw, hnested⟩

theorem makeType_ensures (index : Nat) (row : TypeRow) (hvalid : Valid rows links) :
    Ensures rows links (makeType rows index row) (TypeLinked rows index row) := by
  refine .liftBind fun base hbase => .liftBind fun enclosing henclosing => ?_
  refine .liftBind fun fields hfields => .liftBind fun methods hmethods => ?_
  refine .liftBind fun properties hproperties => .liftBind fun nested hnested => ?_
  refine .liftBind fun listed hlisted => .liftBind fun name _ => .liftBind fun space _ => ?_
  have hnestedlt : ∀ i ∈ nested, i < rows.nestedTypes.size :=
    fun i hi => Bounds.lt_of_mem_range hnested hi
  refine .bind (nestedTypes_ensures hvalid hnestedlt) ?_
  intro nestedTypes after _ hvalid' hnestedTypes
  have hlistedlt : ∀ i ∈ listed, i < rows.interfaces.size :=
    fun i hi => Bounds.lt_of_mem_range hlisted hi
  refine .bind (listedReferences_ensures hvalid' hlisted hlistedlt) ?_
  intro interfaces last _ hvalid'' hinterfaces
  refine .liftBind fun parameters hparameters => .pure hvalid'' ?_
  exact ⟨hbase, henclosing, hfields, hmethods, hproperties, ⟨nested, hnested, hnestedTypes⟩,
    hinterfaces, hparameters⟩

theorem range'_head_length {start count : Int} {target : Table} {site : Site}
    {range : List Nat} (h : Bounds.range rows start count target site = .ok range) :
    List.range' (range.head?.getD 0) range.length = range := by
  unfold Bounds.range at h
  split at h
  · obtain rfl := Except.ok.inj h
    rfl
  · split at h
    · cases h
    · obtain rfl := Except.ok.inj h
      rw [List.length_range']
      cases hcount : count.toNat with
      | zero => rfl
      | succ n => rw [List.head?_range', if_neg (Nat.succ_ne_zero n), Option.getD_some]

theorem makeModule_ensures (index : Nat) (row : ImageRow) (hvalid : Valid rows links) :
    Ensures rows links (makeModule rows index row) fun module _ =>
      ModuleLinked rows index row module := by
  refine .liftBind fun range hrange => .liftBind fun name _ => .pure hvalid ?_
  exact hrange.trans (congrArg Except.ok (range'_head_length hrange).symm)

theorem makeGenericParameter_ensures (index : Nat) (row : GenericParameterRow)
    (hvalid : Valid rows links) :
    Ensures rows links (makeGenericParameter rows index row)
      (GenericParameterLinked rows index row) := by
  refine .liftBind fun container hcontainer => ?_
  obtain ⟨-, hlt⟩ := Bounds.index_eq_ok_iff.mp hcontainer
  have howning : rows.genericContainers[container]? = some rows.genericContainers[container] :=
    Array.getElem?_eq_getElem hlt
  simp only [howning, Option.getD_some]
  refine .liftBind fun owner howner => .liftBind fun range hrange => .liftBind fun name _ => ?_
  have hrangelt : ∀ i ∈ range, i < rows.constraints.size :=
    fun i hi => Bounds.lt_of_mem_range hrange hi
  refine .bind (listedReferences_ensures hvalid hrange hrangelt) ?_
  intro constraints after _ hvalid' hconstraints
  refine .pure hvalid' ⟨?_, hconstraints⟩
  exact ⟨container, _, hcontainer, howning, rfl, howner⟩

theorem makeParameter_ensures {index : Nat} (hlt : index < rows.parameters.size)
    (hvalid : Valid rows links) :
    Ensures rows links (makeParameter rows index) (ParameterLinked rows index) := by
  have hrow : rows.parameters[index]? = some rows.parameters[index] :=
    Array.getElem?_eq_getElem hlt
  simp only [makeParameter, hrow, Option.getD_some]
  refine .liftBind fun name hname => .bind (reference_ensures _ _ hvalid) ?_
  intro type after _ hvalid' htype
  exact .pure hvalid' ⟨_, hrow, hname, htype, rfl⟩

theorem makeMethod_ensures (index : Nat) (row : MethodRow) (hvalid : Valid rows links) :
    Ensures rows links (makeMethod rows index row) (MethodLinked rows index row) := by
  refine .liftBind fun declaringType hdeclaring => .liftBind fun range hrange => ?_
  have hparameter : ∀ i ∈ range, ∀ {links : Links}, Valid rows links →
      Ensures rows links (makeParameter rows i) (ParameterLinked rows i) :=
    fun i hi _ hvalid => makeParameter_ensures (Bounds.lt_of_mem_range hrange hi) hvalid
  refine .bind (.mapM ParameterLinked.lasting hparameter hvalid) ?_
  intro parameters after _ hvalid' hparameters
  refine .liftBind fun name _ => .bind (reference_ensures _ _ hvalid') ?_
  intro returnType last hgrow hvalid'' hreturn
  refine .liftBind fun generic hgeneric => .pure hvalid'' ?_
  have hlast := hparameters.imp fun i parameter => ParameterLinked.lasting i parameter hgrow
  exact ⟨hdeclaring, ⟨range, hrange, hlast⟩, hreturn, hgeneric⟩

theorem makeField_ensures {types : Array TypeDefinition} (index : Nat) (row : FieldRow)
    (hvalid : Valid rows links) :
    Ensures rows links (makeField rows types index row) (FieldLinked rows types index row) := by
  refine .bind (reference_ensures _ _ hvalid) ?_
  intro type after _ hvalid' htype
  exact .liftBind fun name _ => .pure hvalid' ⟨htype, rfl⟩

theorem makeMethodSpec_ensures (index : Nat) (row : MethodSpecRow) (hvalid : Valid rows links) :
    Ensures rows links (makeMethodSpec rows index row) (MethodSpecLinked rows index row) := by
  refine .liftBind fun method hmethod => ?_
  refine .bind (argumentList_ensures hvalid) ?_
  intro classArguments after _ hvalid' hclass
  refine .bind (argumentList_ensures hvalid') ?_
  intro arguments middle hgrow hvalid'' hown
  have hclass' := hclass.mono hgrow
  obtain ⟨-, hmethodlt⟩ := Bounds.index_eq_ok_iff.mp hmethod
  have hfits : InstantiationFits rows middle ⟨method, true, classArguments, arguments⟩ :=
    ⟨hmethodlt, hclass'.lt_size hvalid'', hown.lt_size hvalid''⟩
  refine (internInstantiation_ensures hvalid'' hfits).imp ?_
  intro number last hlast _ hnumber
  exact ⟨method, classArguments, arguments, hmethod, hclass'.mono hlast, hown.mono hlast, hnumber⟩

end Makers

end TypeAtlas.TypeGraph
