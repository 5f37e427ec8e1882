import TypeAtlas.Proofs.Linking.Definitions

namespace TypeAtlas.TypeGraph

open Links Link

variable {rows : Rows} {links : Links} {graph : TypeGraph}

/-- Every definition of a graph is made from its row, with the references that the links give. -/
structure Linked (rows : Rows) (links : Links) (graph : TypeGraph) : Prop where
  valid : Valid rows links
  references : graph.references = links.references.items
  instantiations : graph.instantiations = links.instantiations.items
  types : MadeFrom rows.types graph.types fun index row type => TypeLinked rows index row type links
  assigned : ∀ type ∈ graph.types, ∀ module, type.module = some module →
    module < graph.modules.size
  modules : MadeFrom rows.images graph.modules (ModuleLinked rows)
  genericParameters : MadeFrom rows.genericParameters graph.genericParameters
    fun index row parameter => GenericParameterLinked rows index row parameter links
  methods : MadeFrom rows.methods graph.methods fun index row method =>
    MethodLinked rows index row method links
  fields : MadeFrom rows.fields graph.fields fun index row field =>
    FieldLinked rows graph.types index row field links
  properties : MadeFrom rows.properties graph.properties fun index _ property =>
    makeProperty rows graph.types index = .ok property
  methodSpecs : MadeFrom rows.methodSpecs graph.methodSpecs fun index row number =>
    MethodSpecLinked rows index row number links

theorem madeFrom_assignModules {types : Array TypeDefinition} (modules : Array Module)
    (h : MadeFrom rows.types types fun index row type => TypeLinked rows index row type links) :
    MadeFrom rows.types (assignModules types modules) fun index row type =>
      TypeLinked rows index row type links := by
  refine ⟨by simpa [assignModules] using h.size, ?_⟩
  intro index row type hrow htype
  rw [assignModules, Array.getElem?_mapIdx] at htype
  obtain ⟨unassigned, hunassigned, rfl⟩ := Option.map_eq_some_iff.mp htype
  have hlinked := h.related hrow hunassigned
  exact ⟨hlinked.base, hlinked.enclosing, hlinked.fields, hlinked.methods, hlinked.properties,
    hlinked.nestedTypes, hlinked.interfaces, hlinked.genericParameters⟩

theorem assignModules_lt {types : Array TypeDefinition} {modules : Array Module}
    {type : TypeDefinition} (htype : type ∈ assignModules types modules) {module : Nat}
    (hmodule : type.module = some module) : module < modules.size := by
  obtain ⟨index, hlt, rfl⟩ := Array.mem_iff_getElem.mp htype
  simp only [assignModules, Array.getElem_mapIdx] at hmodule
  obtain ⟨hmodulelt, -⟩ := Array.findIdx?_eq_some_iff_getElem.mp hmodule
  exact hmodulelt

theorem madeFrom_modify {types : Array TypeDefinition} {fields : Array FieldDefinition}
    (index : Nat) (value : Constant)
    (h : MadeFrom rows.fields fields fun index row field =>
      FieldLinked rows types index row field links) :
    MadeFrom rows.fields (fields.modify index fun field => { field with default := some value })
      fun index row field => FieldLinked rows types index row field links := by
  refine ⟨by simpa using h.size, ?_⟩
  intro other row field hrow hfield
  rw [Array.getElem?_modify] at hfield
  split at hfield
  · obtain ⟨bare, hbare, rfl⟩ := Option.map_eq_some_iff.mp hfield
    have hlinked := h.related hrow hbare
    exact ⟨hlinked.type, hlinked.declaringType⟩
  · exact h.related hrow hfield

theorem madeFrom_assignDefaults {types : Array TypeDefinition} {fields : Array FieldDefinition}
    (defaults : List (Nat × Constant))
    (h : MadeFrom rows.fields fields fun index row field =>
      FieldLinked rows types index row field links) :
    MadeFrom rows.fields (assignDefaults fields defaults) fun index row field =>
      FieldLinked rows types index row field links := by
  induction defaults generalizing fields with
  | nil => exact h
  | cons entry defaults ih =>
      obtain ⟨index, value⟩ := entry
      exact ih (madeFrom_modify index value h)

theorem madeFrom_makeProperties {types : Array TypeDefinition} {properties : Array Property}
    (h : makeProperties rows types = .ok properties) :
    MadeFrom rows.properties properties fun index _ property =>
      makeProperty rows types index = .ok property := by
  unfold makeProperties at h
  obtain ⟨_, -, h⟩ := bind_eq_ok h
  obtain ⟨made, hmade, h⟩ := bind_eq_ok h
  obtain rfl := Except.ok.inj h
  have hrows := mapM_eq_ok hmade
  refine ⟨by simpa using hrows.length_eq.symm, ?_⟩
  intro index row property hrow hproperty
  obtain ⟨hlt, -⟩ := Array.getElem?_eq_some_iff.mp hrow
  obtain ⟨other, hother, hmake⟩ := exists_getElem?_of_forall₂ hrows (by simpa using hproperty)
  rw [List.getElem?_range hlt] at hother
  obtain rfl := Option.some.inj hother
  exact hmake

theorem defaults_ensures (entries : List (DefaultRow × Nat)) (hvalid : Valid rows links) :
    Ensures rows links
      (entries.mapM fun (row, index) => liftM (makeDefault rows index row))
      fun defaults _ => defaults.length = entries.length := by
  have hlift : ∀ entry ∈ entries, ∀ {links : Links}, Valid rows links →
      Ensures rows links (liftM (makeDefault rows entry.2 entry.1)) fun _ _ => True :=
    fun _ _ _ hvalid => .lift hvalid fun _ _ => trivial
  refine (Ensures.mapM (fun _ _ _ _ _ h => h) hlift hvalid).imp ?_
  intro defaults after _ _ hdefaults
  exact hdefaults.length_eq.symm

/-- The rows that are linked make a graph whose definitions are made from them. -/
theorem link_ensures (rows : Rows) :
    Ensures rows {} (link rows) fun graph links => Linked rows links graph := by
  refine .bind (forRows_ensures TypeLinked.lasting makeType_ensures (valid_empty rows)) ?_
  intro unassigned first _ hvalid htypes
  refine .liftBind fun _ _ => .liftBind fun _ _ => ?_
  refine .bind (forRows_ensures (fun _ _ _ _ _ _ h => h) makeModule_ensures hvalid) ?_
  intro modules second hsecond hvalid hmodules
  refine .bind
    (forRows_ensures GenericParameterLinked.lasting makeGenericParameter_ensures hvalid) ?_
  intro parameters third hthird hvalid hparameters
  refine .bind (forRows_ensures MethodLinked.lasting makeMethod_ensures hvalid) ?_
  intro methods fourth hfourth hvalid hmethods
  refine .bind (forRows_ensures FieldLinked.lasting makeField_ensures hvalid) ?_
  intro bare fifth hfifth hvalid hbare
  refine .bind (defaults_ensures rows.defaults.toList.zipIdx hvalid) ?_
  intro defaults sixth hsixth hvalid _
  refine .liftBind fun properties hproperties => ?_
  refine .bind (forRows_ensures MethodSpecLinked.lasting makeMethodSpec_ensures hvalid) ?_
  intro specs last hlast hvalid hspecs
  refine .getBind (.pure hvalid ?_)
  have hlast := hsixth.trans hlast
  have hfifth := hfifth.trans hlast
  have hfourth := hfourth.trans hfifth
  have hthird := hthird.trans hfourth
  have hsecond := hsecond.trans hthird
  exact {
    valid := hvalid
    references := rfl
    instantiations := rfl
    types := madeFrom_assignModules modules (htypes.imp fun index row type h =>
      TypeLinked.lasting index row type hsecond h)
    assigned := fun type htype module => assignModules_lt htype
    modules := hmodules
    genericParameters := hparameters.imp fun index row parameter h =>
      GenericParameterLinked.lasting index row parameter hfourth h
    methods := hmethods.imp fun index row method h =>
      MethodLinked.lasting index row method hfifth h
    fields := madeFrom_assignDefaults defaults (hbare.imp fun index row field h =>
      FieldLinked.lasting index row field hlast h)
    properties := madeFrom_makeProperties hproperties
    methodSpecs := hspecs }

theorem outcome_build (metadata : Metadata) :
    (build metadata).outcome.1 = ofRows metadata.rows := by
  cases hrows : ofRows metadata.rows with
  | error fault =>
      rw [build, hrows]
      rfl
  | ok graph =>
      rw [build, hrows]
      rfl

theorem exists_run_of_build {metadata : Metadata}
    (h : (build metadata).outcome.1 = .ok graph) :
    ∃ links, StateT.run (link metadata.rows) {} = .ok (graph, links) := by
  rw [outcome_build, ofRows] at h
  cases hrun : StateT.run (link metadata.rows) {} with
  | error fault =>
      rw [hrun] at h
      cases h
  | ok result =>
      obtain ⟨built, links⟩ := result
      rw [hrun] at h
      obtain rfl := Except.ok.inj h
      exact ⟨links, rfl⟩

/-- A graph that has been built comes with the links of its rows. -/
theorem exists_linked_of_build {metadata : Metadata}
    (h : (build metadata).outcome.1 = .ok graph) : ∃ links, Linked metadata.rows links graph := by
  obtain ⟨links, hrun⟩ := exists_run_of_build h
  exact ⟨links, (link_ensures metadata.rows graph links hrun).2.2⟩

/-- A small blob: a generic type, and a type with an interface, a property, a method and four
fields, whose types are an array and a generic instance that are each written twice. -/
def smallBlob : Metadata where
  data := ByteArray.empty
  header := ⟨Header.expectedSanity, 29, .v29_0, []⟩
  tables := [
    (.properties, #[[-1, 0, -1, 0, 0]]),
    (.methods, #[[-1, 1, 0, 0, -1, 1, 0, 0, 0, 1]]),
    (.parameters, #[[-1, 0, 3]]),
    (.fields, #[[-1, 1, 0], [-1, 3, 0], [-1, 4, 0], [-1, 5, 0]]),
    (.genericParameters, #[[0, -1, 0, 1, 0, 0]]),
    (.genericParameterConstraints, #[[0]]),
    (.genericContainers, #[[0, 1, 0, 0]]),
    (.interfaces, #[[4]]),
    (.typeDefinitions, #[
      [-1, -1, 0, -1, -1, -1, 0, 0, 0, 0, 0, 0, 0, 0, 0, 0, 0, 0, 0, 0, 0, 0, 0, 0, 0, 0],
      [-1, -1, 0, -1, 0, -1, -1, 0, 0, 0, 0, 0, 0, 0, 0, 0, 1, 1, 4, 0, 0, 0, 1, 0, 0, 0]]),
    (.images, #[[-1, 0, 0, 2, 0, 0, 0, 0, 0, 0]]),
    (.typeReferences, #[[0, 0, 8, 0], [0, 0, 29, 0], [0, 0, 8, 0], [2, 0, 29, 0], [0, 0, 21, 0],
      [1, 0, 21, 0]]),
    (.genericClasses, #[[0, 0], [0, 1]]),
    (.genericInsts, #[[1, 0], [1, 1]]),
    (.genericArguments, #[[1], [3]]),
    (.methodSpecs, #[[0, -1, 0], [0, -1, 1]])]

theorem exists_build_of_map {α : Type} {metadata : Metadata} {view : TypeGraph → α} {value : α}
    (h : (ofRows metadata.rows).toOption.map view = some value) :
    ∃ graph, (build metadata).outcome.1 = .ok graph ∧ view graph = value := by
  rw [outcome_build]
  cases hrows : ofRows metadata.rows with
  | error fault =>
      rw [hrows] at h
      cases h
  | ok graph =>
      rw [hrows] at h
      exact ⟨graph, rfl, Option.some.inj h⟩

/-- The graph of the small blob, in which equal types share a reference. -/
def smallGraph : TypeGraph where
  release := .v29_0
  modules := #[⟨"", 0, 2, 0⟩]
  types := #[⟨"", "", some 0, none, none, [], [], [], [], [], [0], 0, 0, 0⟩,
    ⟨"", "", some 0, some 0, none, [0, 1, 2, 3], [0], [0], [], [2], [], 0, 0, 0⟩]
  methods := #[⟨"", 1, 0, [⟨"", 1, 0⟩], [], 0, 0, 0, 1⟩]
  fields := #[⟨"", some 1, 1, 0, 0, none⟩, ⟨"", some 1, 1, 0, 0, none⟩,
    ⟨"", some 1, 2, 0, 0, none⟩, ⟨"", some 1, 2, 0, 0, none⟩]
  properties := #[⟨"", some 1, some 0, none, 0, 0⟩]
  genericParameters := #[⟨"", 0, false, 0, 0, [0]⟩]
  references := #[⟨8, .nothing, false, 0⟩, ⟨29, .element 0, false, 0⟩,
    ⟨21, .instantiation 0, false, 0⟩]
  instantiations := #[⟨0, false, [], [1]⟩, ⟨0, true, [], [1]⟩]
  methodSpecs := #[1, 1]
  literals := #[]
  methodAddresses := #[]

theorem build_smallBlob : (build smallBlob).outcome.1 = .ok smallGraph := by
  rw [outcome_build]
  cbv

end TypeAtlas.TypeGraph
