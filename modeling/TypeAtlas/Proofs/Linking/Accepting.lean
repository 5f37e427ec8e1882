import TypeAtlas.Proofs.Linking.Sound
import TypeAtlas.Proofs.Metadata.RoundTrip

namespace TypeAtlas.TypeGraph

open Links Link

variable {rows : Rows} {index : Nat}

section Checks

variable {start count value : Int} {target : Table} {site : Site}

theorem range_of_sound (hsound : rows.Sound) (h : rows.ReadsRange start count target site) :
    Bounds.range rows start count target site = .ok (List.range' start.toNat count.toNat) :=
  range_eq_ok site (hsound.ranges h).2

theorem index_of_sound (hsound : rows.Sound) (h : rows.ReadsIndex value target site) :
    ∃ n : Nat, value = n ∧ Bounds.index rows value target site = .ok n :=
  index_eq_ok site (hsound.indices h)

theorem optionalIndex_of_sound (hsound : rows.Sound)
    (h : value ≠ Bounds.noIndex → rows.ReadsIndex value target site) :
    ∃ found, Bounds.optionalIndex rows value target site = .ok found := by
  unfold Bounds.optionalIndex
  split
  · exact ⟨none, rfl⟩
  · next hsome =>
      obtain ⟨n, -, hn⟩ := index_of_sound hsound (h hsome)
      rw [hn]
      exact ⟨some n, rfl⟩

theorem containedParameters_of_sound (hsound : rows.Sound) {container : Int} {table : Table}
    (hindex : container ≠ Bounds.noIndex → rows.ReadsIndex container .genericContainers
      ⟨table, index, "generic_container_index"⟩)
    (hrange : ∀ {found : Nat} {row : GenericContainerRow}, container = found →
      rows.genericContainers[found]? = some row →
        rows.ReadsRange row.parameterStart row.parameterCount .genericParameters
          ⟨.genericContainers, found, "generic_parameter_start"⟩) :
    ∃ parameters, containedParameters rows container table index = .ok parameters := by
  unfold containedParameters
  split
  · exact ⟨[], rfl⟩
  · next hsome =>
      obtain ⟨found, hcontainer, hfound⟩ := index_of_sound hsound (hindex hsome)
      have hlt : found < rows.genericContainers.size := (Bounds.index_eq_ok_iff.mp hfound).2
      have hrow : rows.genericContainers[found]? = some rows.genericContainers[found] :=
        Array.getElem?_eq_getElem hlt
      rw [hfound, ok_bind, hrow, Option.getD_some]
      exact ⟨_, range_of_sound hsound (hrange hcontainer hrow)⟩

theorem listedReferences_answers (hsound : rows.Sound) {indices : Array Int} {table : Table}
    {range : List Nat} (h : ∀ place ∈ range, ∃ index, indices[place]? = some index ∧
      rows.Uses index) : Answers (listedReferences rows indices table range) := by
  refine .mapM fun place hplace => ?_
  obtain ⟨index, hindex, huses⟩ := h place hplace
  rw [hindex, Option.getD_some]
  exact reference_answers hsound huses _

end Checks

section Makers

theorem makeType_answers (hsound : rows.Sound) (hnamed : rows.Named) {row : TypeRow}
    (hrow : rows.types[index]? = some row) : Answers (makeType rows index row) := by
  have hmem := Array.mem_of_getElem? hrow
  obtain ⟨base, hbase⟩ := optionalIndex_of_sound hsound (.base hrow)
  obtain ⟨enclosing, henclosing⟩ := optionalIndex_of_sound hsound (.enclosing hrow)
  have hnested := range_of_sound hsound (.nestedTypes hrow)
  have hinterfaces := range_of_sound hsound (.interfaces hrow)
  obtain ⟨parameters, hparameters⟩ := containedParameters_of_sound hsound
    (fun hsome => .typeContainer hrow hsome) (.typeContainer hrow)
  refine .liftBind hbase (.liftBind henclosing ?_)
  refine .liftBind (range_of_sound hsound (.fields hrow)) ?_
  refine .liftBind (range_of_sound hsound (.methods hrow)) ?_
  refine .liftBind (range_of_sound hsound (.properties hrow)) ?_
  refine .liftBind hnested (.liftBind hinterfaces ?_)
  refine .bind (name_failsOnly (hnamed.types row hmem).1) fun name => ?_
  refine .bind (name_failsOnly (hnamed.types row hmem).2) fun namespaceName => ?_
  refine .bind (.mapM fun place hplace => ?_) fun nestedTypes => ?_
  · obtain ⟨value, hvalue, hinside, -⟩ := exists_value_of_range rows.nestedTypes hnested rfl hplace
    rw [hvalue, Option.getD_some]
    obtain ⟨n, -, hn⟩ := index_of_sound hsound (.nestedType hrow hinside hvalue)
    rw [hn]
    exact .pure n
  · refine .bind (listedReferences_answers hsound fun place hplace => ?_) fun interfaces =>
      .liftBind hparameters (.pure _)
    obtain ⟨value, hvalue, -, hlists⟩ :=
      exists_value_of_range rows.interfaces hinterfaces rfl hplace
    exact ⟨value, hvalue, .interface hmem hlists⟩

theorem makeModule_answers (hsound : rows.Sound) (hnamed : rows.Named) {row : ImageRow}
    (hrow : rows.images[index]? = some row) : Answers (makeModule rows index row) :=
  .liftBind (range_of_sound hsound (.moduleTypes hrow))
    (.bind (name_failsOnly (hnamed.images row (Array.mem_of_getElem? hrow))) fun _ => .pure _)

theorem makeGenericParameter_answers (hsound : rows.Sound) (hnamed : rows.Named)
    {row : GenericParameterRow} (hrow : rows.genericParameters[index]? = some row) :
    Answers (makeGenericParameter rows index row) := by
  have hmem := Array.mem_of_getElem? hrow
  obtain ⟨container, hcontainer, hfound⟩ := index_of_sound hsound (.container hrow)
  have hlt : container < rows.genericContainers.size := (Bounds.index_eq_ok_iff.mp hfound).2
  have howning : rows.genericContainers[container]? = some rows.genericContainers[container] :=
    Array.getElem?_eq_getElem hlt
  obtain ⟨owner, -, howner⟩ := index_of_sound hsound (.owner hrow hcontainer howning)
  have hconstraints := range_of_sound hsound (.constraints hrow)
  refine .liftBind hfound ?_
  simp only [howning, Option.getD_some]
  refine .liftBind howner (.liftBind hconstraints ?_)
  refine .bind (name_failsOnly (hnamed.genericParameters row hmem)) fun name => ?_
  refine .bind (listedReferences_answers hsound fun place hplace => ?_) fun constraints => .pure _
  obtain ⟨value, hvalue, -, hlists⟩ :=
    exists_value_of_range rows.constraints hconstraints rfl hplace
  exact ⟨value, hvalue, .constraint hmem hlists⟩

theorem makeMethod_answers (hsound : rows.Sound) (hnamed : rows.Named) {row : MethodRow}
    (hrow : rows.methods[index]? = some row) : Answers (makeMethod rows index row) := by
  have hmem := Array.mem_of_getElem? hrow
  obtain ⟨declaringType, -, hdeclaring⟩ := index_of_sound hsound (.declaringType hrow)
  have hparameters := range_of_sound hsound (.parameters hrow)
  obtain ⟨generic, hgeneric⟩ := containedParameters_of_sound hsound
    (fun hsome => .methodContainer hrow hsome) (.methodContainer hrow)
  refine .liftBind hdeclaring (.liftBind hparameters ?_)
  refine .bind (.mapM fun place hplace => ?_) fun parameters => ?_
  · obtain ⟨parameter, hparameter, -, hlists⟩ :=
      exists_value_of_range rows.parameters hparameters rfl hplace
    rw [makeParameter, hparameter, Option.getD_some]
    refine .bind (name_failsOnly (hnamed.parameters parameter ?_)) fun name => ?_
    · exact Array.mem_of_getElem? hparameter
    · exact .bind (reference_answers hsound (.parameter hmem hlists) _) fun type => .pure _
  · refine .bind (name_failsOnly (hnamed.methods row hmem)) fun name => ?_
    refine .bind (reference_answers hsound (.returned hmem) _) fun returnType => ?_
    exact .liftBind hgeneric (.pure _)

theorem makeField_answers (hsound : rows.Sound) (hnamed : rows.Named)
    (types : Array TypeDefinition) {row : FieldRow} (hrow : rows.fields[index]? = some row) :
    Answers (makeField rows types index row) :=
  .bind (reference_answers hsound (.field (Array.mem_of_getElem? hrow)) _) fun _ =>
    .bind (name_failsOnly (hnamed.fields row (Array.mem_of_getElem? hrow))) fun _ => .pure _

theorem makeDefault_isOk (hsound : rows.Sound) {row : DefaultRow}
    (hrow : rows.defaults[index]? = some row) :
    ∃ default, makeDefault rows index row = .ok default := by
  obtain ⟨field, -, hfield⟩ := index_of_sound hsound (.defaultField hrow)
  obtain ⟨type, hdata, htype⟩ := index_of_sound hsound (.defaultType hrow)
  have hlt := (Bounds.index_eq_ok_iff.mp htype).2
  have hreference := getElem?_row hlt
  have hvalue : valueAt? rows.references row.type = some (Link.row rows type) := by
    rw [hdata]
    exact hreference
  obtain ⟨value, hread⟩ := Constant.read_isOk_iff.mpr
    (hsound.defaults (Array.mem_of_getElem? hrow) hvalue)
  rw [makeDefault, hfield, ok_bind, htype, ok_bind, hread, ok_bind]
  exact ⟨_, rfl⟩

theorem makeMethodSpec_answers (hsound : rows.Sound) {row : MethodSpecRow}
    (hrow : rows.methodSpecs[index]? = some row) : Answers (makeMethodSpec rows index row) := by
  have hmem := Array.mem_of_getElem? hrow
  obtain ⟨method, -, hmethod⟩ := index_of_sound hsound (.specMethod hrow)
  refine .liftBind hmethod ?_
  refine .bind (argumentList_answers hsound (.classArguments hmem) ?_ ?_) fun classArguments => ?_
  · exact fun hsome => hsound.indices (.specClassList hrow hsome)
  · exact fun argument hargument => .classArgument hmem hargument
  · refine .bind (argumentList_answers hsound (.methodArguments hmem) ?_ ?_) fun arguments => ?_
    · exact fun hsome => hsound.indices (.specMethodList hrow hsome)
    · exact fun argument hargument => .methodArgument hmem hargument
    · intro links fault hrun
      cases hrun

end Makers

section Properties

variable {types : Array TypeDefinition}

/-- Types list the properties and the methods of their rows. -/
def ListsMembers (rows : Rows) (types : Array TypeDefinition) : Prop :=
  MadeFrom rows.types types fun index row type =>
    Bounds.range rows row.methodStart row.methodCount .methods
        ⟨.typeDefinitions, index, "method_start"⟩ = .ok type.methods ∧
      Bounds.range rows row.propertyStart row.propertyCount .properties
        ⟨.typeDefinitions, index, "property_start"⟩ = .ok type.properties

theorem accessor_isOk {type : TypeDefinition} {relative : Int} {name : String}
    (h : relative = Bounds.noIndex ∨ 0 ≤ relative ∧ relative < type.methods.length) :
    ∃ found, accessor type relative index name = .ok found := by
  unfold accessor
  rcases h with hnone | ⟨hpos, hlt⟩
  · rw [if_pos hnone]
    exact ⟨none, rfl⟩
  · have hsome : relative ≠ Bounds.noIndex := by
      simp only [Bounds.noIndex]
      omega
    have hmethod := List.getElem?_eq_getElem (by omega : relative.toNat < type.methods.length)
    rw [if_neg hsome, if_neg (by omega), hmethod]
    exact ⟨_, rfl⟩

/-- The row of a property; a row past the end of the table has no name and no accessors. -/
def propertyRow (rows : Rows) (index : Nat) : PropertyRow :=
  (rows.properties[index]?).getD ⟨Strings.noString, Bounds.noIndex, Bounds.noIndex, 0, 0⟩

theorem hasName_propertyRow (hnamed : rows.Named) (index : Nat) :
    rows.HasName (propertyRow rows index).name := by
  unfold propertyRow
  cases hrow : rows.properties[index]? with
  | none => exact ⟨"", rfl⟩
  | some row => exact hnamed.properties row (Array.mem_of_getElem? hrow)

theorem accessors_of_lists (hsound : rows.Sound) (hlists : ListsMembers rows types) {owner : Nat}
    {type : TypeDefinition} (htype : types[owner]? = some type)
    (hlisted : index ∈ type.properties) {relative : Int}
    (h : relative = (propertyRow rows index).getter ∨
      relative = (propertyRow rows index).setter) :
    relative = Bounds.noIndex ∨ 0 ≤ relative ∧ relative < type.methods.length := by
  obtain ⟨row, hrow, hmethods, hproperties⟩ := hlists.exists_row htype
  obtain ⟨property, hproperty, hinside, -⟩ :=
    exists_value_of_range rows.properties hproperties rfl hlisted
  have hlength : type.methods.length = row.methodCount.toNat := by
    rw [(Bounds.range_eq_ok_iff.mp hmethods).2, List.length_range']
  rw [propertyRow, hproperty, Option.getD_some] at h
  refine (hsound.accessors (Array.mem_of_getElem? hrow) hinside hproperty relative h).imp id ?_
  rintro ⟨hpos, hlt⟩
  exact ⟨hpos, by omega⟩

theorem makeProperty_isOk (hsound : rows.Sound) (hnamed : rows.Named)
    (hlists : ListsMembers rows types) (index : Nat) :
    ∃ property, makeProperty rows types index = .ok property := by
  obtain ⟨name, hname⟩ := hasName_propertyRow hnamed index
  unfold makeProperty
  dsimp only
  rw [← propertyRow, hname, ok_bind]
  split
  · next type hdeclaring =>
      obtain ⟨owner, howner, htype⟩ := Option.bind_eq_some_iff.mp hdeclaring
      obtain ⟨hlt, hcontains, -⟩ := Array.findIdx?_eq_some_iff_getElem.mp howner
      obtain rfl := Option.some.inj ((Array.getElem?_eq_getElem hlt).symm.trans htype)
      have hlisted := List.contains_iff_mem.mp hcontains
      have haccessor : ∀ relative name, relative = (propertyRow rows index).getter ∨
          relative = (propertyRow rows index).setter →
            ∃ found, accessor types[owner] relative index name = .ok found :=
        fun relative name h => accessor_isOk (accessors_of_lists hsound hlists htype hlisted h)
      obtain ⟨getter, hgetter⟩ := haccessor _ "get" (Or.inl rfl)
      obtain ⟨setter, hsetter⟩ := haccessor _ "set" (Or.inr rfl)
      rw [hgetter, ok_bind, hsetter, ok_bind]
      exact ⟨_, rfl⟩
  · exact ⟨_, rfl⟩

theorem makeProperties_isOk (hsound : rows.Sound) (hnamed : rows.Named)
    (hlists : ListsMembers rows types) :
    ∃ properties, makeProperties rows types = .ok properties := by
  have hall : ∀ indices : List Nat, ∃ made, indices.mapM (makeProperty rows types) = .ok made :=
    fun indices => mapM_isOk_iff.mpr fun index _ => makeProperty_isOk hsound hnamed hlists index
  obtain ⟨_, hlisted⟩ := hall (types.toList.flatMap TypeDefinition.properties)
  obtain ⟨made, hmade⟩ := hall (List.range rows.properties.size)
  rw [makeProperties, hlisted, ok_bind, hmade, ok_bind]
  exact ⟨_, rfl⟩

end Properties

section Building

theorem allowed_of_bind {α β : Type} {links : Links} {allowed : Fault → Prop} {fault : Fault}
    {first : Link α} {next : α → Link β} {post : α → Links → Prop}
    (hensures : Ensures rows links first post) (hfirst : FailsOnly first allowed)
    (hnext : ∀ value after, post value after → FailsOnly (next value) allowed)
    (h : StateT.run (first >>= next) links = .error fault) : allowed fault := by
  rw [StateT.run_bind] at h
  rcases bind_eq_error h with hfault | ⟨⟨value, after⟩, hvalue, hfault⟩
  · exact hfirst links fault hfault
  · obtain ⟨-, -, hpost⟩ := hensures value after hvalue
    exact hnext value after hpost after fault hfault

theorem run_link_ne_error (hsound : rows.Sound) (hnamed : rows.Named) (fault : Fault) :
    StateT.run (link rows) {} ≠ .error fault := by
  refine fun h => allowed_of_bind
    (forRows_ensures TypeLinked.lasting makeType_ensures (valid_empty rows))
    (forRows_failsOnly fun index row hrow => makeType_answers hsound hnamed hrow) ?_ h
  intro unassigned first hmade
  have henclosings := checkTypes_of_chainEnds (hmade.imp fun _ _ _ h => ⟨_, h.enclosing⟩)
    hsound.enclosings "is nested in"
  have hbases := checkTypes_of_chainEnds (hmade.imp fun _ _ _ h => ⟨_, h.base⟩)
    hsound.bases "derives from"
  refine .liftBind henclosings (.liftBind hbases ?_)
  refine .bind (forRows_failsOnly fun index row hrow =>
    makeModule_answers hsound hnamed hrow) fun modules => ?_
  refine .bind (forRows_failsOnly fun index row hrow =>
    makeGenericParameter_answers hsound hnamed hrow) fun genericParameters => ?_
  refine .bind (forRows_failsOnly fun index row hrow =>
    makeMethod_answers hsound hnamed hrow) fun methods => ?_
  refine .bind (forRows_failsOnly fun index row hrow =>
    makeField_answers hsound hnamed _ hrow) fun bare => ?_
  refine .bind (.mapM ?_) fun defaults => ?_
  · rintro ⟨row, index⟩ hrow
    rw [List.mem_zipIdx_iff_getElem?, Array.getElem?_toList] at hrow
    obtain ⟨default, hdefault⟩ := makeDefault_isOk hsound hrow
    dsimp only
    rw [hdefault]
    exact .pure default
  · have hlists : ListsMembers rows (assignModules unassigned modules) :=
      (madeFrom_assignModules modules hmade).imp fun _ _ _ h => ⟨h.methods, h.properties⟩
    obtain ⟨properties, hproperties⟩ := makeProperties_isOk hsound hnamed hlists
    refine .liftBind hproperties ?_
    refine .bind (forRows_failsOnly fun index row hrow =>
      makeMethodSpec_answers hsound hrow) fun methodSpecs => ?_
    exact .getBind fun links => .pure _

/-- A blob that has been read has a graph if its rows are sound. -/
theorem build_of_sound {data : ByteArray} {override : Option Double} {metadata : Metadata}
    (h : (Metadata.read data override).outcome.1 = .ok metadata)
    (hsound : metadata.rows.Sound) : ∃ graph, (build metadata).outcome.1 = .ok graph := by
  rw [outcome_build, ofRows]
  cases hrun : StateT.run (link metadata.rows) {} with
  | ok result => exact ⟨result.1, rfl⟩
  | error fault => exact absurd hrun (run_link_ne_error hsound (named_of_read h) fault)

end Building

/-- Two types with a field of each other's type. The first one has two more fields, whose type is a
generic instance nested in another one, and a field of arrays of the inner instance. -/
def siblingContent : Content where
  records
    | .fields => [[-1, 0, 0], [-1, 4, 0], [-1, 4, 0], [-1, 5, 0], [-1, 1, 0]]
    | .typeDefinitions => [
        [-1, -1, 0, -1, -1, -1, -1, 0, 0, 0, 0, 0, 0, 0, 0, 0, 0, 0, 4, 0, 0, 0, 0, 0, 0, 0],
        [-1, -1, 0, -1, 0, -1, -1, 0, 4, 0, 0, 0, 0, 0, 0, 0, 0, 0, 1, 0, 0, 0, 0, 0, 0, 0]]
    | .typeReferences => [[1, 0, 0x12, 0], [0, 0, 0x12, 0], [0, 0, 0x08, 0], [0, 0, 0x15, 0],
        [1, 0, 0x15, 0], [3, 0, 0x1D, 0]]
    | .genericClasses => [[0, 0], [0, 1]]
    | .genericInsts => [[1, 0], [1, 1]]
    | .genericArguments => [[2], [3]]
    | _ => []
  bytes _ := []

theorem fits_siblingContent : siblingContent.Fits .v27_0 :=
  ⟨by decide, by decide, by decide, by decide +kernel⟩

/-- The rows of the siblings. -/
structure HasSiblings (rows : Rows) : Prop where
  types : rows.types = #[
    ⟨-1, -1, -1, -1, -1, 0, 4, 0, 0, 0, 0, 0, 0, 0, 0, 0, 0, 0⟩,
    ⟨-1, -1, 0, -1, -1, 4, 1, 0, 0, 0, 0, 0, 0, 0, 0, 0, 0, 0⟩]
  fields : rows.fields = #[⟨-1, 0, 0⟩, ⟨-1, 4, 0⟩, ⟨-1, 4, 0⟩, ⟨-1, 5, 0⟩, ⟨-1, 1, 0⟩]
  references : rows.references = #[⟨1, 0, 0x12, 0⟩, ⟨0, 0, 0x12, 0⟩, ⟨0, 0, 0x08, 0⟩,
    ⟨0, 0, 0x15, 0⟩, ⟨1, 0, 0x15, 0⟩, ⟨3, 0, 0x1D, 0⟩]
  genericClasses : rows.genericClasses = #[⟨0, 0⟩, ⟨0, 1⟩]
  genericInsts : rows.genericInsts = #[⟨1, 0⟩, ⟨1, 1⟩]
  genericArguments : rows.genericArguments = #[2, 3]
  methods : rows.methods = #[]
  genericParameters : rows.genericParameters = #[]
  defaults : rows.defaults = #[]
  properties : rows.properties = #[]
  images : rows.images = #[]
  methodSpecs : rows.methodSpecs = #[]

theorem exists_siblings : ∃ metadata,
    (Metadata.read (siblingContent.encode .v27_0).toByteArray
      (some Release.v27_0.value)).outcome.1 = .ok metadata ∧ HasSiblings metadata.rows := by
  have hrows : ∀ {α : Type} {table : Table} {make : (String → Int) → α},
      table ∈ Release.v27_0.recordTables → (siblingContent.metadata .v27_0).rowsOf table make =
        (siblingContent.records table).toArray.map fun record =>
          make (fun name => record.value (Release.v27_0.fieldsOf table) name) := by
    intro α table make htable
    rw [Metadata.rowsOf, Content.release_metadata,
      Content.table_metadata fits_siblingContent htable]
  refine ⟨siblingContent.metadata .v27_0, Content.read_blob fits_siblingContent, ?_⟩
  constructor
  all_goals
    dsimp only [Metadata.rows, Metadata.indices]
    rw [hrows]
    · cbv
    · decide

section Siblings

theorem HasSiblings.types_all (h : HasSiblings rows) : ∀ row ∈ rows.types,
    (row.base = -1 ∨ row.base = 0) ∧ row.enclosing = -1 ∧ row.genericContainer = -1 ∧
      rows.Meets row.fieldStart row.fieldCount .fields ∧ 0 ≤ row.fieldCount ∧
      row.methodCount = 0 ∧ row.propertyCount = 0 ∧ row.nestedCount = 0 ∧
      row.interfaceCount = 0 := by
  simp [h.types, Rows.Meets, Rows.count, h.fields]

theorem HasSiblings.argumentRows (h : HasSiblings rows) :
    rows.argumentRows? 0 = some [2] ∧ rows.argumentRows? 1 = some [3] := by
  simp [Rows.argumentRows?, Bounds.noIndex, valueAt?, h.genericInsts, h.genericArguments,
    valuesAt?]

theorem HasSiblings.unfolds (h : HasSiblings rows) {index : Nat} (hlt : index < 6) :
    ∃ tree, rows.Unfolds index tree ∧ tree.nesting ≤ 2 := by
  have hrow : ∀ {index : Nat} {row : ReferenceRow} {tree : TypeTree},
      rows.references[index]? = some row →
        rows.DataUnfolds row.head (Kind.role row.kind) row.data tree → rows.Unfolds index tree :=
    fun hrow hdata => .row hrow hdata
  have hclass : ∀ {index : Nat} {row : GenericClassRow}, rows.genericClasses[index]? = some row →
      valueAt? rows.genericClasses index = some row := id
  have hint := hrow (by rw [h.references]; rfl : rows.references[2]? = some ⟨0, 0, 0x08, 0⟩) .plain
  have hinner := hrow (by rw [h.references]; rfl : rows.references[3]? = some ⟨0, 0, 0x15, 0⟩)
    (.instantiation (hclass (by rw [h.genericClasses]; rfl)) h.argumentRows.1
      (.cons hint .nil))
  have houter := hrow (by rw [h.references]; rfl : rows.references[4]? = some ⟨1, 0, 0x15, 0⟩)
    (.instantiation (hclass (by rw [h.genericClasses]; rfl)) h.argumentRows.2
      (.cons hinner .nil))
  interval_cases index
  · exact ⟨_, hrow (by rw [h.references]; rfl) .definition, Nat.zero_le _⟩
  · exact ⟨_, hrow (by rw [h.references]; rfl) .definition, Nat.zero_le _⟩
  · exact ⟨_, hint, Nat.zero_le _⟩
  · exact ⟨_, hinner, by decide⟩
  · exact ⟨_, houter, by decide⟩
  · exact ⟨_, hrow (by rw [h.references]; rfl) (.element hinner), by decide⟩

theorem HasSiblings.references_all (h : HasSiblings rows) : ∀ row ∈ rows.references,
    ∀ target, (Kind.role row.kind).table? = some target →
      0 ≤ row.data ∧ row.data < rows.count target := by
  have hclass : (Kind.role 0x12).table? = some .typeDefinitions := by decide
  have hplain : (Kind.role 0x08).table? = none := by decide
  have hinstance : (Kind.role 0x15).table? = some .genericClasses := by decide
  have hvector : (Kind.role 0x1D).table? = some .typeReferences := by decide
  simp [h.references, hclass, hplain, hinstance, hvector, Rows.count, h.types, h.genericClasses]

theorem HasSiblings.indices (h : HasSiblings rows) {value : Int} {target : Table} {site : Site}
    (hreads : rows.ReadsIndex value target site) : 0 ≤ value ∧ value < rows.count target := by
  have hfields : ∀ row ∈ rows.fields, 0 ≤ row.type ∧ row.type < rows.references.size := by
    simp [h.fields, h.references]
  have hclasses : ∀ row ∈ rows.genericClasses, (0 ≤ row.definition ∧
      row.definition < rows.types.size) ∧ 0 ≤ row.arguments ∧
        row.arguments < rows.genericInsts.size := by
    simp [h.genericClasses, h.types, h.genericInsts]
  have harguments : ∀ value ∈ rows.genericArguments, 0 ≤ value ∧
      value < rows.references.size := by
    simp [h.genericArguments, h.references]
  cases hreads with
  | base hrow hsome =>
      rcases (h.types_all _ (Array.mem_of_getElem? hrow)).1 with hbase | hbase
      · exact absurd hbase hsome
      · simp [hbase, Rows.count, h.types]
  | enclosing hrow hsome => exact absurd (h.types_all _ (Array.mem_of_getElem? hrow)).2.1 hsome
  | typeContainer hrow hsome =>
      exact absurd (h.types_all _ (Array.mem_of_getElem? hrow)).2.2.1 hsome
  | nestedType hrow hplace | interface hrow hplace =>
      obtain ⟨-, -, -, -, -, -, -, hnested, hinterface⟩ :=
        h.types_all _ (Array.mem_of_getElem? hrow)
      unfold InRange at hplace
      omega
  | field hrow => exact hfields _ (Array.mem_of_getElem? hrow)
  | data _ hrow hrole => exact h.references_all _ (Array.mem_of_getElem? hrow) _ hrole
  | definition _ hrow => exact (hclasses _ (Array.mem_of_getElem? hrow)).1
  | classList _ hrow => exact (hclasses _ (Array.mem_of_getElem? hrow)).2
  | argument _ _ _ hvalue => exact harguments _ (Array.mem_of_getElem? hvalue)
  | container hrow | owner hrow | constraint hrow => simp [h.genericParameters] at hrow
  | declaringType hrow | parameter hrow | returned hrow | methodContainer hrow =>
      simp [h.methods] at hrow
  | defaultField hrow | defaultType hrow => simp [h.defaults] at hrow
  | specMethod hrow | specClassList hrow | specMethodList hrow => simp [h.methodSpecs] at hrow

theorem HasSiblings.ranges (h : HasSiblings rows) {start count : Int} {target : Table}
    {site : Site} (hreads : rows.ReadsRange start count target site) :
    0 ≤ count ∧ rows.Meets start count target := by
  have hinsts : ∀ row ∈ rows.genericInsts, 0 ≤ row.argumentCount ∧
      rows.Meets row.argumentStart row.argumentCount .genericArguments := by
    simp [h.genericInsts, Rows.Meets, Rows.count, h.genericArguments]
  cases hreads with
  | fields hrow | methods hrow | properties hrow | nestedTypes hrow | interfaces hrow =>
      obtain ⟨-, -, -, hfields, hcount, hmethods, hproperties, hnested, hinterfaces⟩ :=
        h.types_all _ (Array.mem_of_getElem? hrow)
      first
        | exact ⟨hcount, hfields⟩
        | exact ⟨by omega, Or.inl (by assumption)⟩
  | typeContainer hrow hcontainer =>
      have hnone := (h.types_all _ (Array.mem_of_getElem? hrow)).2.2.1
      omega
  | arguments _ hrow => exact hinsts _ (Array.mem_of_getElem? hrow)
  | moduleTypes hrow => simp [h.images] at hrow
  | parameters hrow | methodContainer hrow => simp [h.methods] at hrow
  | constraints hrow => simp [h.genericParameters] at hrow

theorem HasSiblings.sound (h : HasSiblings rows) : rows.Sound := by
  have hfirst : valueAt? rows.types 0 =
      some ⟨-1, -1, -1, -1, -1, 0, 4, 0, 0, 0, 0, 0, 0, 0, 0, 0, 0, 0⟩ := by
    simp [valueAt?, h.types]
  constructor
  case indices => exact h.indices
  case ranges => exact h.ranges
  case bases =>
    intro row hrow
    rcases (h.types_all row hrow).1 with hbase | hbase
    · rw [hbase]
      exact .last
    · rw [hbase]
      exact .next hfirst .last
  case enclosings =>
    intro row hrow
    rw [(h.types_all row hrow).2.1]
    exact .last
  case accessors =>
    intro place row property _ _ hproperty
    simp [h.properties] at hproperty
  case defaults =>
    intro row type hrow
    simp [h.defaults] at hrow
  case references =>
    intro index huses
    cases huses with
    | @field row hrow =>
        obtain ⟨n, hn, hlt⟩ : ∃ n : Nat, row.type = n ∧ n < 6 := by
          rw [h.fields] at hrow
          simp only [List.mem_toArray, List.mem_cons, List.not_mem_nil, or_false] at hrow
          rcases hrow with rfl | rfl | rfl | rfl | rfl
          · exact ⟨0, rfl, by decide⟩
          · exact ⟨4, rfl, by decide⟩
          · exact ⟨4, rfl, by decide⟩
          · exact ⟨5, rfl, by decide⟩
          · exact ⟨1, rfl, by decide⟩
        obtain ⟨tree, htree, hnesting⟩ := h.unfolds hlt
        exact ⟨tree, hn ▸ htree, hnesting.trans (by decide)⟩
    | returned hrow | parameter hrow => simp [h.methods] at hrow
    | interface hrow hindex =>
        have hcount := (h.types_all _ hrow).2.2.2.2.2.2.2.2
        obtain ⟨i, hi, -⟩ := hindex
        omega
    | constraint hrow => simp [h.genericParameters] at hrow
    | classArgument hrow | methodArgument hrow => simp [h.methodSpecs] at hrow

theorem build_siblings : ∃ metadata,
    (Metadata.read (siblingContent.encode .v27_0).toByteArray
      (some Release.v27_0.value)).outcome.1 = .ok metadata ∧ metadata.rows.Sound ∧
        ∃ graph, (build metadata).outcome.1 = .ok graph := by
  obtain ⟨metadata, hread, hrows⟩ := exists_siblings
  exact ⟨metadata, hread, hrows.sound, build_of_sound hread hrows.sound⟩

end Siblings

end TypeAtlas.TypeGraph
