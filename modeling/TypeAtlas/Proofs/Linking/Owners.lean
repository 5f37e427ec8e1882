import Mathlib.Order.Bounds.Basic
import TypeAtlas.Proofs.Linking.Reads

namespace TypeAtlas.TypeGraph

open Links Link

variable {rows : Rows} {links : Links} {graph : TypeGraph}

/-- The range of fields of a type holds a field. -/
def ListsField (graph : TypeGraph) (type field : Nat) : Prop :=
  ∃ definition, graph.types[type]? = some definition ∧ field ∈ definition.fields

/-- The range of methods of a type holds a method. -/
def ListsMethod (graph : TypeGraph) (type method : Nat) : Prop :=
  ∃ definition, graph.types[type]? = some definition ∧ method ∈ definition.methods

/-- The range of types of a module holds a type. -/
def Covers (graph : TypeGraph) (module type : Nat) : Prop :=
  ∃ found, graph.modules[module]? = some found ∧ type ∈ found.types

/-- No type lists a row twice, and the owner of a row is the first of those that could be. -/
structure Owned (graph : TypeGraph) : Prop where
  nodupFields : ∀ {type : Nat} {definition : TypeDefinition},
    graph.types[type]? = some definition → definition.fields.Nodup
  nodupMethods : ∀ {type : Nat} {definition : TypeDefinition},
    graph.types[type]? = some definition → definition.methods.Nodup
  declaringType : ∀ {field : Nat} {definition : FieldDefinition},
    graph.fields[field]? = some definition → ∀ type,
      definition.declaringType = some type ↔ IsLeast {type | graph.ListsField type field} type
  module : ∀ {type : Nat} {definition : TypeDefinition},
    graph.types[type]? = some definition → ∀ module,
      definition.module = some module ↔ IsLeast {module | graph.Covers module type} module

theorem findIdx?_eq_some_iff_isLeast {α : Type} {values : Array α} {test : α → Bool} {index : Nat} :
    values.findIdx? test = some index ↔
      IsLeast {i | ∃ value, values[i]? = some value ∧ test value = true} index := by
  rw [Array.findIdx?_eq_some_iff_getElem]
  constructor
  · rintro ⟨hlt, htest, hfirst⟩
    refine ⟨⟨_, Array.getElem?_eq_getElem hlt, htest⟩, ?_⟩
    rintro other ⟨value, hvalue, hother⟩
    obtain ⟨hotherlt, rfl⟩ := Array.getElem?_eq_some_iff.mp hvalue
    exact Nat.le_of_not_lt fun hbefore => hfirst other hbefore hother
  · rintro ⟨⟨value, hvalue, htest⟩, hleast⟩
    obtain ⟨hlt, rfl⟩ := Array.getElem?_eq_some_iff.mp hvalue
    refine ⟨hlt, htest, fun other hbefore hother => ?_⟩
    have hle := hleast ⟨_, Array.getElem?_eq_getElem (hbefore.trans hlt), hother⟩
    omega

theorem nodup_of_range {start count : Int} {target : Table} {site : Site} {range : List Nat}
    (h : Bounds.range rows start count target site = .ok range) : range.Nodup := by
  obtain ⟨-, rfl⟩ := Bounds.range_eq_ok_iff.mp h
  exact List.nodup_range'

theorem exists_of_run_bind {α β : Type} {first : Link α} {next : α → Link β} {result : β × Links}
    (h : StateT.run (first >>= next) links = .ok result) :
    ∃ value after, StateT.run first links = .ok (value, after) ∧
      StateT.run (next value) after = .ok result := by
  rw [StateT.run_bind] at h
  obtain ⟨⟨value, after⟩, hfirst, hnext⟩ := bind_eq_ok h
  exact ⟨value, after, hfirst, hnext⟩

theorem exists_assignModules_of_run (h : StateT.run (link rows) {} = .ok (graph, links)) :
    ∃ unassigned, graph.types = assignModules unassigned graph.modules := by
  obtain ⟨unassigned, _, -, h⟩ := exists_of_run_bind h
  obtain ⟨_, _, -, h⟩ := exists_of_run_bind h
  obtain ⟨_, _, -, h⟩ := exists_of_run_bind h
  obtain ⟨modules, _, -, h⟩ := exists_of_run_bind h
  -- No later pass assigns types again.
  iterate 7 obtain ⟨_, _, -, h⟩ := exists_of_run_bind h
  obtain ⟨rfl, -⟩ := Prod.mk.inj (Except.ok.inj h)
  exact ⟨unassigned, rfl⟩

theorem mem_types_iff {module : Module} {type : Nat} :
    type ∈ module.types ↔
      module.typeStart ≤ type ∧ type < module.typeStart + module.typeCount := by
  rw [Module.types, List.mem_range'_1]

theorem module_eq_some_iff {unassigned : Array TypeDefinition} {type module : Nat}
    {definition : TypeDefinition} (hassigned : graph.types = assignModules unassigned graph.modules)
    (htype : graph.types[type]? = some definition) :
    definition.module = some module ↔ IsLeast {module | graph.Covers module type} module := by
  rw [hassigned, assignModules, Array.getElem?_mapIdx] at htype
  obtain ⟨bare, -, rfl⟩ := Option.map_eq_some_iff.mp htype
  dsimp only
  rw [findIdx?_eq_some_iff_isLeast]
  simp only [Covers, mem_types_iff, Bool.and_eq_true, decide_eq_true_eq]

theorem declaringType_eq_some_iff {field type : Nat} {definition : FieldDefinition} {row : FieldRow}
    (h : FieldLinked rows graph.types field row definition links) :
    definition.declaringType = some type ↔ IsLeast {type | graph.ListsField type field} type := by
  rw [h.declaringType, findIdx?_eq_some_iff_isLeast]
  simp only [ListsField, List.contains_iff_mem]

theorem owned_of_build {metadata : Metadata} (h : (build metadata).outcome.1 = .ok graph) :
    graph.Owned := by
  obtain ⟨links, hrun⟩ := exists_run_of_build h
  have hlinked := (link_ensures metadata.rows graph links hrun).2.2
  obtain ⟨unassigned, hassigned⟩ := exists_assignModules_of_run hrun
  refine ⟨fun htype => ?_, fun htype => ?_, fun hfield type => ?_,
    fun htype module => module_eq_some_iff hassigned htype⟩
  · obtain ⟨_, -, hmade⟩ := hlinked.types.exists_row htype
    exact nodup_of_range hmade.fields
  · obtain ⟨_, -, hmade⟩ := hlinked.types.exists_row htype
    exact nodup_of_range hmade.methods
  · obtain ⟨_, -, hmade⟩ := hlinked.fields.exists_row hfield
    exact declaringType_eq_some_iff hmade

end TypeAtlas.TypeGraph
