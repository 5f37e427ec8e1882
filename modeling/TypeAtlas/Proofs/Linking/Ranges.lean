import TypeAtlas.Proofs.Linking.Reads

namespace TypeAtlas

open Links TypeGraph

/-- A list holds a range: it has as many entries as are counted, none for a negative count, and each
of them is what stands at its place. -/
structure Holds {α : Type} (start count : Int) (stands : Int → α → Prop) (entries : List α) :
    Prop where
  length : (entries.length : Int) = max 0 count
  stands : ∀ {i : Nat} {entry : α}, entries[i]? = some entry → stands (start + i) entry

def IsPlace (place : Int) (index : Nat) : Prop := place = index

/-- The number of a reference stands for the row that is listed at a place. -/
def StandsFor (rows : Rows) (graph : TypeGraph) (indices : Array Int) (place : Int)
    (number : Nat) : Prop :=
  ∃ index, valueAt? indices place = some index ∧ SameTree rows graph index number

/-- A parameter repeats the row that stands at a place. -/
def RepeatsParameter (rows : Rows) (graph : TypeGraph) (place : Int) (parameter : Parameter) :
    Prop :=
  ∃ row, valueAt? rows.parameters place = some row ∧
    rows.strings.get row.name = .ok parameter.name ∧
    SameTree rows graph row.type parameter.type ∧ parameter.token = row.token

/-- Generic parameters are those of a container. The index -1 stands for no container. -/
inductive HoldsContainer (rows : Rows) : Int → List Nat → Prop
  | none : HoldsContainer rows Bounds.noIndex []
  | some {container : Int} {row : GenericContainerRow} {parameters : List Nat}
      (hrow : valueAt? rows.genericContainers container = some row)
      (h : Holds row.parameterStart row.parameterCount IsPlace parameters) :
      HoldsContainer rows container parameters

/-- References are those of an argument list. The index -1 stands for no arguments. -/
inductive HoldsArguments (rows : Rows) (graph : TypeGraph) : Int → List Nat → Prop
  | none : HoldsArguments rows graph Bounds.noIndex []
  | some {list : Int} {row : GenericInstRow} {numbers : List Nat}
      (hrow : valueAt? rows.genericInsts list = some row)
      (h : Holds row.argumentStart row.argumentCount (StandsFor rows graph rows.genericArguments)
        numbers) : HoldsArguments rows graph list numbers

/-- The relations of a type hold the ranges of its row. -/
structure TypeRanged (rows : Rows) (graph : TypeGraph) (row : TypeRow) (type : TypeDefinition) :
    Prop where
  fields : Holds row.fieldStart row.fieldCount IsPlace type.fields
  methods : Holds row.methodStart row.methodCount IsPlace type.methods
  properties : Holds row.propertyStart row.propertyCount IsPlace type.properties
  nestedTypes : Holds row.nestedStart row.nestedCount
    (fun place (nested : Nat) => valueAt? rows.nestedTypes place = some (nested : Int))
    type.nestedTypes
  interfaces : Holds row.interfaceStart row.interfaceCount (StandsFor rows graph rows.interfaces)
    type.interfaces
  genericParameters : HoldsContainer rows row.genericContainer type.genericParameters

/-- The relations of a method hold the ranges of its row. -/
structure MethodRanged (rows : Rows) (graph : TypeGraph) (row : MethodRow) (method : Method) :
    Prop where
  parameters : Holds row.parameterStart row.parameterCount (RepeatsParameter rows graph)
    method.parameters
  genericParameters : HoldsContainer rows row.genericContainer method.genericParameters

/-- The relations of a graph hold the ranges of its rows. -/
structure Ranged (rows : Rows) (graph : TypeGraph) : Prop where
  types : MadeFrom rows.types graph.types fun _ row type => TypeRanged rows graph row type
  modules : MadeFrom rows.images graph.modules fun _ row module =>
    Holds row.typeStart row.typeCount IsPlace module.types
  methods : MadeFrom rows.methods graph.methods fun _ row method =>
    MethodRanged rows graph row method
  constraints : MadeFrom rows.genericParameters graph.genericParameters fun _ row parameter =>
    Holds row.constraintStart row.constraintCount (StandsFor rows graph rows.constraints)
      parameter.constraints
  specs : MadeFrom rows.methodSpecs graph.methodSpecs fun _ row number =>
    ∃ instantiation, graph.instantiations[number]? = some instantiation ∧
      HoldsArguments rows graph row.classArguments instantiation.classArguments ∧
      HoldsArguments rows graph row.methodArguments instantiation.arguments
  instances : ∀ {index : Int} {row : ReferenceRow}, rows.Used index →
    valueAt? rows.references index = some row → Kind.role row.kind = .instantiation →
      ∃ number found classRow instantiation, SameTree rows graph index number ∧
        graph.references[number]? = some (row.toReference (.instantiation found)) ∧
        valueAt? rows.genericClasses row.data = some classRow ∧
        graph.instantiations[found]? = some instantiation ∧
        HoldsArguments rows graph classRow.arguments instantiation.arguments

section Holding

variable {rows : Rows} {links : Links} {graph : TypeGraph} {start count : Int} {target : Table}
  {site : Site} {range : List Nat}

theorem holds_of_range {α : Type} {relation : Nat → α → Prop} {stands : Int → α → Prop}
    {made : List α} (h : Bounds.range rows start count target site = .ok range)
    (hmade : List.Forall₂ relation range made)
    (hstands : ∀ place entry, relation place entry → stands (place : Nat) entry) :
    Holds start count stands made := by
  obtain ⟨hmeets, rfl⟩ := Bounds.range_eq_ok_iff.mp h
  have hlength : made.length = count.toNat := by rw [← hmade.length_eq, List.length_range']
  refine ⟨by omega, fun {i entry} hentry => ?_⟩
  obtain ⟨hlt, -⟩ := List.getElem?_eq_some_iff.mp hentry
  obtain ⟨place, hplace, hrelation⟩ := exists_getElem?_of_forall₂ hmade hentry
  rw [List.getElem?_range' (by omega), Option.some.injEq, Nat.one_mul] at hplace
  have hat : start + (i : Int) = (place : Nat) := by
    unfold Rows.Meets at hmeets
    omega
  rw [hat]
  exact hstands place entry hrelation

theorem holds_isPlace (h : Bounds.range rows start count target site = .ok range) :
    Holds start count IsPlace range :=
  holds_of_range h (List.forall₂_same.mpr fun _ _ => rfl) fun _ _ hplace =>
    congrArg Int.ofNat hplace

theorem holds_of_rangeLeads (hlinked : graph.Linked rows links) {indices : Array Int}
    {numbers : List Nat}
    (h : RangeLeads rows links indices (Bounds.range rows start count target site) numbers) :
    Holds start count (StandsFor rows graph indices) numbers := by
  obtain ⟨range, hrange, hleads⟩ := h
  refine holds_of_range hrange hleads ?_
  rintro place number ⟨index, hindex, hlead⟩
  exact ⟨index, hindex, sameTree_of_leads hlinked hlead⟩

theorem containedParameters_eq_ok {container : Int} {table : Table} {index : Nat}
    {parameters : List Nat} (h : containedParameters rows container table index = .ok parameters) :
    container = Bounds.noIndex ∧ parameters = [] ∨
      ∃ found row, container = (found : Nat) ∧ rows.genericContainers[found]? = some row ∧
        Bounds.range rows row.parameterStart row.parameterCount .genericParameters
          ⟨.genericContainers, found, "generic_parameter_start"⟩ = .ok parameters := by
  unfold containedParameters at h
  split at h
  · next hnone => exact Or.inl ⟨hnone, (Except.ok.inj h).symm⟩
  · obtain ⟨found, hfound, hrange⟩ := bind_eq_ok h
    obtain ⟨hcontainer, hlt⟩ := Bounds.index_eq_ok_iff.mp hfound
    have hrow : rows.genericContainers[found]? = some rows.genericContainers[found] :=
      Array.getElem?_eq_getElem hlt
    rw [hrow] at hrange
    exact Or.inr ⟨found, _, hcontainer, hrow, hrange⟩

theorem holdsContainer_of_containedParameters {container : Int} {table : Table} {index : Nat}
    {parameters : List Nat} (h : containedParameters rows container table index = .ok parameters) :
    HoldsContainer rows container parameters := by
  rcases containedParameters_eq_ok h with ⟨rfl, rfl⟩ | ⟨found, row, rfl, hrow, hrange⟩
  · exact .none
  · exact .some hrow (holds_isPlace hrange)

theorem holdsArguments_of_instLeads (hlinked : graph.Linked rows links) {index : Int}
    {numbers : List Nat} (h : InstLeads rows links index numbers) :
    HoldsArguments rows graph index numbers := by
  rcases h with ⟨rfl, rfl⟩ | ⟨list, rfl, -, harguments⟩
  · exact .none
  · obtain ⟨row, range, hrow, hrange, hleads⟩ := hlinked.valid.arguments harguments
    exact .some hrow (holds_of_rangeLeads hlinked ⟨range, hrange, hleads⟩)

theorem typeRanged_of_linked (hlinked : graph.Linked rows links) {index : Nat} {row : TypeRow}
    {type : TypeDefinition} (h : TypeLinked rows index row type links) :
    TypeRanged rows graph row type where
  fields := holds_isPlace h.fields
  methods := holds_isPlace h.methods
  properties := holds_isPlace h.properties
  nestedTypes := by
    obtain ⟨range, hrange, hnested⟩ := h.nestedTypes
    refine holds_of_range hrange hnested ?_
    rintro place nested ⟨raw, hraw, hindex⟩
    rw [← (Bounds.index_eq_ok_iff.mp hindex).1]
    exact hraw
  interfaces := holds_of_rangeLeads hlinked h.interfaces
  genericParameters := holdsContainer_of_containedParameters h.genericParameters

theorem methodRanged_of_linked (hlinked : graph.Linked rows links) {index : Nat} {row : MethodRow}
    {method : Method} (h : MethodLinked rows index row method links) :
    MethodRanged rows graph row method where
  parameters := by
    obtain ⟨range, hrange, hparameters⟩ := h.parameters
    refine holds_of_range hrange hparameters ?_
    rintro place parameter ⟨row, hrow, hmade⟩
    exact ⟨row, hrow, hmade.name, sameTree_of_leads hlinked hmade.type, hmade.token⟩
  genericParameters := holdsContainer_of_containedParameters h.genericParameters

theorem ranged_of_linked (hlinked : graph.Linked rows links) : Ranged rows graph where
  types := hlinked.types.imp fun _ _ _ h => typeRanged_of_linked hlinked h
  modules := hlinked.modules.imp fun _ _ _ h => holds_isPlace h
  methods := hlinked.methods.imp fun _ _ _ h => methodRanged_of_linked hlinked h
  constraints := hlinked.genericParameters.imp fun _ _ _ h =>
    holds_of_rangeLeads hlinked h.constraints
  specs := hlinked.methodSpecs.imp fun _ _ _ h => by
    obtain ⟨_, _, _, -, hclass, hmethod, hfound⟩ := h
    rw [← hlinked.instantiations] at hfound
    exact ⟨_, hfound, holdsArguments_of_instLeads hlinked hclass,
      holdsArguments_of_instLeads hlinked hmethod⟩
  instances := by
    intro index row hused hrow hrole
    obtain ⟨number, target, hleads, hreference, htarget⟩ :=
      exists_instantiation_of_used hlinked hused hrow hrole
    rw [← hlinked.references] at hreference
    have hsame := sameTree_of_leads hlinked hleads
    generalize hdata : row.data = data at htarget ⊢
    cases htarget with
    | @instantiation _ _ found classRow numbers hclass _ _ harguments hfound =>
        rw [← hlinked.instantiations] at hfound
        exact ⟨number, found, classRow, _, hsame, hreference, hclass, hfound,
          holdsArguments_of_instLeads hlinked harguments⟩

end Holding

section Reading

variable {rows : Rows} {links : Links} {graph : TypeGraph} {start count : Int} {target : Table}
  {site : Site}

theorem range_of_containedParameters {container index : Nat} {table : Table}
    {row : GenericContainerRow} {parameters : List Nat}
    (h : containedParameters rows container table index = .ok parameters)
    (hrow : rows.genericContainers[container]? = some row) :
    Bounds.range rows row.parameterStart row.parameterCount .genericParameters
      ⟨.genericContainers, container, "generic_parameter_start"⟩ = .ok parameters := by
  rcases containedParameters_eq_ok h with ⟨hnone, -⟩ | ⟨found, row', heq, hrow', hrange⟩
  · simp only [Bounds.noIndex] at hnone
    omega
  · obtain rfl := Int.ofNat.inj heq
    obtain rfl := Option.some.inj (hrow.symm.trans hrow')
    exact hrange

theorem exists_range_of_reads (hlinked : graph.Linked rows links)
    (h : rows.ReadsRange start count target site) :
    ∃ range, Bounds.range rows start count target site = .ok range := by
  cases h with
  | fields hrow =>
      obtain ⟨type, htype⟩ := hlinked.types.exists_value hrow
      exact ⟨_, (hlinked.types.related hrow htype).fields⟩
  | methods hrow =>
      obtain ⟨type, htype⟩ := hlinked.types.exists_value hrow
      exact ⟨_, (hlinked.types.related hrow htype).methods⟩
  | properties hrow =>
      obtain ⟨type, htype⟩ := hlinked.types.exists_value hrow
      exact ⟨_, (hlinked.types.related hrow htype).properties⟩
  | nestedTypes hrow =>
      obtain ⟨type, htype⟩ := hlinked.types.exists_value hrow
      obtain ⟨range, hrange, -⟩ := (hlinked.types.related hrow htype).nestedTypes
      exact ⟨range, hrange⟩
  | interfaces hrow =>
      obtain ⟨type, htype⟩ := hlinked.types.exists_value hrow
      obtain ⟨range, hrange, -⟩ := (hlinked.types.related hrow htype).interfaces
      exact ⟨range, hrange⟩
  | moduleTypes hrow =>
      obtain ⟨module, hmodule⟩ := hlinked.modules.exists_value hrow
      exact ⟨_, hlinked.modules.related hrow hmodule⟩
  | parameters hrow =>
      obtain ⟨method, hmethod⟩ := hlinked.methods.exists_value hrow
      obtain ⟨range, hrange, -⟩ := (hlinked.methods.related hrow hmethod).parameters
      exact ⟨range, hrange⟩
  | typeContainer hrow hcontainer hcontaining =>
      obtain ⟨type, htype⟩ := hlinked.types.exists_value hrow
      have hparameters := (hlinked.types.related hrow htype).genericParameters
      rw [hcontainer] at hparameters
      exact ⟨_, range_of_containedParameters hparameters hcontaining⟩
  | methodContainer hrow hcontainer hcontaining =>
      obtain ⟨method, hmethod⟩ := hlinked.methods.exists_value hrow
      have hparameters := (hlinked.methods.related hrow hmethod).genericParameters
      rw [hcontainer] at hparameters
      exact ⟨_, range_of_containedParameters hparameters hcontaining⟩
  | constraints hrow =>
      obtain ⟨parameter, hparameter⟩ := hlinked.genericParameters.exists_value hrow
      obtain ⟨range, hrange, -⟩ :=
        (hlinked.genericParameters.related hrow hparameter).constraints
      exact ⟨range, hrange⟩
  | @arguments list row hused hrow =>
      obtain ⟨numbers, hleads⟩ := exists_instLeads_of_usesList hlinked hused
      rcases hleads with ⟨hnone, -⟩ | ⟨list', heq, -, harguments⟩
      · simp only [Bounds.noIndex] at hnone
        omega
      · obtain rfl := Int.ofNat.inj heq
        obtain ⟨row', range, hrow', hrange, -⟩ := hlinked.valid.arguments harguments
        obtain rfl := Option.some.inj (hrow.symm.trans hrow')
        exact ⟨range, hrange⟩

end Reading

namespace TypeGraph

/-- In a graph that has been built every range that a row counts is held by its relation. A range
that does not lie inside of its table is reported as a dangling reference of the field that holds
its start, and keeps the blob from having a graph. -/
theorem ranges_of_build (metadata : Metadata) :
    (∀ graph, (build metadata).outcome.1 = .ok graph → Ranged metadata.rows graph) ∧
      ∀ start count target site, metadata.rows.ReadsRange start count target site →
        ¬metadata.rows.Meets start count target →
          Bounds.range metadata.rows start count target site =
              .error (Bounds.rangeOutside start count target (metadata.rows.count target) site) ∧
            ¬∃ graph, (build metadata).outcome.1 = .ok graph := by
  refine ⟨fun graph hgraph => ?_, fun start count target site hreads hmeets => ?_⟩
  · obtain ⟨links, hlinked⟩ := exists_linked_of_build hgraph
    exact ranged_of_linked hlinked
  · refine ⟨Bounds.range_eq_error hmeets, ?_⟩
    rintro ⟨graph, hgraph⟩
    obtain ⟨links, hlinked⟩ := exists_linked_of_build hgraph
    obtain ⟨range, hrange⟩ := exists_range_of_reads hlinked hreads
    exact hmeets (Bounds.range_eq_ok_iff.mp hrange).1

/-- A blob with a generic type that counts minus one generic parameter. -/
def negativeBlob : Metadata :=
  { smallBlob with
    tables := [
      (.genericContainers, #[[0, -1, 0, 0]]),
      (.typeDefinitions, #[
        [-1, -1, 0, -1, -1, -1, 0, 0, 0, 0, 0, 0, 0, 0, 0, 0, 0, 0, 0, 0, 0, 0, 0, 0, 0, 0]])] }

/-- A blob with a module of two types that are missing. -/
def typelessBlob : Metadata :=
  { smallBlob with tables := [(.images, #[[-1, 0, 0, 2, 0, 0, 0, 0, 0, 0]])] }

theorem build_negativeBlob : ∃ graph, (build negativeBlob).outcome.1 = .ok graph ∧
    graph.types.toList.map TypeDefinition.genericParameters = [[]] :=
  exists_build_of_map (by cbv)

theorem ranges_negativeBlob :
    (∃ graph, (build negativeBlob).outcome.1 = .ok graph ∧ Ranged negativeBlob.rows graph ∧
      graph.types.toList.map TypeDefinition.genericParameters = [[]]) ∧
      ¬∃ graph, (build typelessBlob).outcome.1 = .ok graph := by
  obtain ⟨graph, hgraph, hparameters⟩ := build_negativeBlob
  have himage : typelessBlob.rows.images[0]? = some ⟨-1, 0, 2, 0⟩ := by cbv
  have hmeets : ¬typelessBlob.rows.Meets 0 2 .typeDefinitions := by
    have hcount : typelessBlob.rows.count .typeDefinitions = 0 := by cbv
    rw [Rows.Meets, hcount]
    omega
  exact ⟨⟨graph, hgraph, (ranges_of_build negativeBlob).1 graph hgraph, hparameters⟩,
    ((ranges_of_build typelessBlob).2 _ _ _ _ (.moduleTypes himage) hmeets).2⟩

end TypeGraph

end TypeAtlas
