import TypeAtlas.Proofs.Linking.Owners
import TypeAtlas.Proofs.Resolution.Attached
import TypeAtlas.Proofs.Resolution.Locality

namespace TypeAtlas

/-- Of all numbers that give a value, the greatest one gives this value. -/
def LastGives (gives : Nat → Int → Prop) (value : Int) : Prop :=
  ∃ last, IsGreatest {index | ∃ given, gives index given} last ∧ gives last value

theorem lastGives_iff_of_first {gives : Nat → Int → Prop} {first : Nat} {value : Int}
    (hfirst : ∀ index given, gives index given → first ≤ index)
    (hbehind : ∀ later, first < later → ∀ given, ¬gives later given) :
    LastGives gives value ↔ gives first value := by
  constructor
  · rintro ⟨last, -, hlast⟩
    have hle := hfirst last value hlast
    have heq : first = last :=
      hle.antisymm (Nat.le_of_not_lt fun hlt => hbehind last hlt value hlast)
    rwa [heq]
  · intro hgives
    refine ⟨first, ⟨⟨value, hgives⟩, ?_⟩, hgives⟩
    rintro later ⟨given, hgiven⟩
    exact Nat.le_of_not_lt fun hlt => hbehind later hlt given hgiven

section Lists

variable {α : Type} {items : List α} {values : α → List Int} {gives : Nat → Int → Prop}
  {value : Int}

theorem lastGives_of_getLast?_flatMap
    (hgives : ∀ index given, gives index given ↔
      ∃ item, items[index]? = some item ∧ (values item).getLast? = some given)
    (h : (items.flatMap values).getLast? = some value) : LastGives gives value := by
  rw [List.getLast?_flatMap, List.findSome?_eq_some_iff] at h
  obtain ⟨behind, item, front, hsplit, hvalue, hbehind⟩ := h
  obtain rfl : items = front.reverse ++ item :: behind.reverse := by
    rw [← List.reverse_inj, hsplit]
    simp
  have hitem : gives front.reverse.length value := by
    refine (hgives _ _).mpr ⟨item, ?_, hvalue⟩
    rw [List.getElem?_append_right (Nat.le_refl _), Nat.sub_self]
    rfl
  refine ⟨front.reverse.length, ⟨⟨value, hitem⟩, ?_⟩, hitem⟩
  rintro later ⟨given, hgiven⟩
  obtain ⟨other, hother, hlast⟩ := (hgives _ _).mp hgiven
  by_contra hlt
  obtain ⟨place, rfl⟩ := Nat.exists_eq_add_of_lt (Nat.lt_of_not_le hlt)
  have hmem : other ∈ behind.reverse := by
    rw [Nat.add_assoc, List.getElem?_append_right (Nat.le_add_right _ _), Nat.add_sub_cancel_left,
      List.getElem?_cons_succ] at hother
    exact List.mem_of_getElem? hother
  rw [hbehind other (List.mem_reverse.mp hmem)] at hlast
  cases hlast

theorem getLast?_flatMap_eq_some_iff
    (hgives : ∀ index given, gives index given ↔
      ∃ item, items[index]? = some item ∧ (values item).getLast? = some given) :
    (items.flatMap values).getLast? = some value ↔ LastGives gives value := by
  refine ⟨lastGives_of_getLast?_flatMap hgives, ?_⟩
  rintro ⟨last, hgreatest, hlast⟩
  obtain ⟨item, hitem, hvalue⟩ := (hgives _ _).mp hlast
  cases hfound : (items.flatMap values).getLast? with
  | none =>
      rw [List.getLast?_eq_none_iff, List.flatMap_eq_nil_iff] at hfound
      rw [hfound item (List.mem_of_getElem? hitem)] at hvalue
      cases hvalue
  | some found =>
      obtain ⟨other, hother, hgiven⟩ := lastGives_of_getLast?_flatMap hgives hfound
      obtain rfl := hother.unique hgreatest
      obtain ⟨same, hsame, hgiven⟩ := (hgives _ _).mp hgiven
      obtain rfl := Option.some.inj (hsame.symm.trans hitem)
      exact hgiven.symm.trans hvalue

end Lists

namespace Resolver

variable {resolver : Resolver} {field method : Nat} {offset address : Int}

theorem getLast?_valuesFor_eq_some_iff {values : List (Nat × Int)} {row : Nat}
    (honly : ∀ value other, (row, value) ∈ values → (row, other) ∈ values → value = other)
    {value : Int} : (valuesFor row values).getLast? = some value ↔ (row, value) ∈ values := by
  rw [← lookup_reverse_eq_getLast?]
  refine ⟨mem_of_lookup_reverse, fun hmem => ?_⟩
  cases hlookup : values.reverse.lookup row with
  | none =>
      have hne := List.lookup_eq_none_iff.mp hlookup (row, value) (List.mem_reverse.mpr hmem)
      simp at hne
  | some other => rw [honly other value (mem_of_lookup_reverse hlookup) hmem]

section Fields

/-- A type that is not generic gives an offset to one of its fields: the one that stands at the
place of the field in the array of the type. -/
def GivesOffset (resolver : Resolver) (type field : Nat) (offset : Int) : Prop :=
  ∃ (metadata : MetadataRegistration) (definition : TypeDefinition) (pointer : Nat)
      (offsets : List Int) (place : Nat),
    resolver.registrations.metadata = some metadata ∧
      resolver.graph.types[type]? = some definition ∧ definition.isGeneric = false ∧
        metadata.fieldOffsets[type]? = some pointer ∧ pointer ≠ 0 ∧
          resolver.memory.readInts pointer definition.fields.length "field_offsets" =
              .ok offsets ∧
            definition.fields[place]? = some field ∧ offsets[place]? = some offset

theorem listsField_of_givesOffset {type : Nat} (h : resolver.GivesOffset type field offset) :
    resolver.graph.ListsField type field := by
  obtain ⟨-, definition, -, -, place, -, htype, -, -, -, -, hfield, -⟩ := h
  exact ⟨definition, htype, List.mem_of_getElem? hfield⟩

theorem flatten_filterMap_toOption (results : List (Except Fault (List (Nat × Int)))) :
    (results.filterMap Except.toOption).flatten =
      results.flatMap fun result => result.toOption.getD [] := by
  induction results with
  | nil => rfl
  | cons result results ih =>
      cases result with
      | error fault => exact ih
      | ok values => exact congrArg (values ++ ·) ih

theorem givesOffset_iff {type : Nat} :
    resolver.GivesOffset type field offset ↔ ∃ metadata definition,
      resolver.registrations.metadata = some metadata ∧
        resolver.graph.types[type]? = some definition ∧
          (field, offset) ∈
            ((resolver.typeOffsets metadata.fieldOffsets type definition).toOption.getD []) := by
  constructor
  · rintro ⟨metadata, definition, pointer, offsets, place, hmetadata, htype, hgeneric, hpointer,
      hnull, hread, hplace⟩
    have hfields : definition.fields ≠ [] :=
      List.ne_nil_of_mem (List.mem_of_getElem? hplace.1)
    exact ⟨metadata, definition, hmetadata, htype, mem_typeOffsets_iff.mpr
      ⟨pointer, offsets, place, ⟨hgeneric, hfields, hpointer, hnull⟩, hread, hplace⟩⟩
  · rintro ⟨metadata, definition, hmetadata, htype, hmem⟩
    obtain ⟨pointer, offsets, place, ⟨hgeneric, -, hpointer, hnull⟩, hread, hplace⟩ :=
      mem_typeOffsets_iff.mp hmem
    exact ⟨metadata, definition, pointer, offsets, place, hmetadata, htype, hgeneric, hpointer,
      hnull, hread, hplace⟩

theorem getLast?_typeOffsets_eq_some_iff {pointers : Array Nat} {index : Nat}
    {type : TypeDefinition} (hnodup : type.fields.Nodup) :
    (valuesFor field ((resolver.typeOffsets pointers index type).toOption.getD [])).getLast? =
        some offset ↔
      (field, offset) ∈ ((resolver.typeOffsets pointers index type).toOption.getD []) := by
  apply getLast?_valuesFor_eq_some_iff
  intro one other hone hother
  obtain ⟨pointer, offsets, place, hreads, hread, hfield, hone⟩ := mem_typeOffsets_iff.mp hone
  obtain ⟨same, others, elsewhere, hsame, hreadSame, hfieldSame, hother⟩ :=
    mem_typeOffsets_iff.mp hother
  obtain rfl := hreads.unique hsame
  obtain rfl := Except.ok.inj (hread.symm.trans hreadSame)
  obtain ⟨hlt, -⟩ := List.getElem?_eq_some_iff.mp hfield
  obtain rfl := (List.getElem?_inj hlt hnodup).mp (hfield.trans hfieldSame.symm)
  exact Option.some.inj (hone.symm.trans hother)

theorem fieldOffset?_eq_some_iff (howned : resolver.graph.Owned)
    (hfield : field < resolver.graph.fields.size) :
    resolver.resolve.fieldOffset? field = some offset ↔
      LastGives (fun type => resolver.GivesOffset type field) offset := by
  change ((tableOf resolver.graph.fields.size _)[field]?).join = _ ↔ _
  rw [getElem?_tableOf _ hfield, Option.join_some, lookup_reverse_eq_getLast?,
    flatten_filterMap_toOption, valuesFor, List.filterMap_flatMap]
  unfold allTypeOffsets
  cases hmetadata : resolver.registrations.metadata with
  | none =>
      constructor
      · intro h
        cases h
      · rintro ⟨last, -, metadata, -, -, -, -, hnone, -⟩
        cases hmetadata.symm.trans hnone
  | some metadata =>
      dsimp only
      rw [List.flatMap_map]
      refine getLast?_flatMap_eq_some_iff fun type given => ?_
      rw [givesOffset_iff]
      constructor
      · rintro ⟨other, definition, hother, htype, hgives⟩
        obtain rfl := Option.some.inj (hother.symm.trans hmetadata)
        refine ⟨(definition, type), ?_, ?_⟩
        · rw [List.getElem?_zipIdx, Array.getElem?_toList, htype, Nat.zero_add]
          rfl
        · exact (getLast?_typeOffsets_eq_some_iff (howned.nodupFields htype)).mpr hgives
      · rintro ⟨item, hitem, hlast⟩
        rw [List.getElem?_zipIdx, Array.getElem?_toList, Nat.zero_add] at hitem
        obtain ⟨definition, htype, rfl⟩ := Option.map_eq_some_iff.mp hitem
        exact ⟨metadata, definition, hmetadata, htype,
          (getLast?_typeOffsets_eq_some_iff (howned.nodupFields htype)).mp hlast⟩

end Fields

section Methods

/-- A module gives an address to one of its methods: the one that stands at the rank of the method
among the pointers of the module with its name. -/
def GivesAddress (resolver : Resolver) (module method : Nat) (address : Int) : Prop :=
  ∃ found, resolver.graph.modules[module]? = some found ∧
    method ∈ resolver.graph.listedMethods found ∧
      resolver.rankedAddress? found (resolver.graph.rankOf found method) = some address

theorem mem_listedMethods_iff {graph : TypeGraph} {module : Module} :
    method ∈ graph.listedMethods module ↔
      ∃ type ∈ module.types, graph.ListsMethod type method := by
  rw [TypeGraph.listedMethods, List.mem_flatMap]
  refine exists_congr fun type => and_congr_right fun _ => ?_
  cases htype : graph.types[type]? <;> simp [TypeGraph.ListsMethod, htype]

theorem count_flatMap_eq_one {items : List Nat} {lists : Nat → List Nat} {item value : Nat}
    (hitems : items.Nodup) (hitem : item ∈ items) (honce : (lists item).count value = 1)
    (hother : ∀ other, value ∈ lists other → other = item) :
    (items.flatMap lists).count value = 1 := by
  have hnone : ∀ part : List Nat, item ∉ part → (part.flatMap lists).count value = 0 := by
    intro part hpart
    rw [List.count_eq_zero, List.mem_flatMap]
    rintro ⟨other, hmem, hvalue⟩
    exact hpart (hother other hvalue ▸ hmem)
  obtain ⟨front, back, rfl⟩ := List.append_of_mem hitem
  rw [List.nodup_append, List.nodup_cons] at hitems
  obtain ⟨-, ⟨hback, -⟩, hacross⟩ := hitems
  have hfront : item ∉ front := fun hmem => hacross item hmem item List.mem_cons_self rfl
  rw [List.flatMap_append, List.flatMap_cons, List.count_append, List.count_append, honce,
    hnone front hfront, hnone back hback]

theorem count_listedMethods {graph : TypeGraph} {module : Module} {type : Nat}
    (howned : graph.Owned) (hlisted : ∀ other, graph.ListsMethod other method → other = type)
    (hmem : method ∈ graph.listedMethods module) :
    (graph.listedMethods module).count method = 1 := by
  obtain ⟨other, hother, hlists⟩ := mem_listedMethods_iff.mp hmem
  obtain rfl := hlisted other hlists
  obtain ⟨definition, htype, hmethod⟩ := hlists
  refine count_flatMap_eq_one List.nodup_range' hother ?_ ?_
  · rw [htype]
    exact List.count_eq_one_of_mem (howned.nodupMethods htype) hmethod
  · intro another hmethod
    cases hanother : graph.types[another]? with
    | none =>
        rw [hanother] at hmethod
        cases hmethod
    | some found =>
        rw [hanother] at hmethod
        exact hlisted another ⟨found, hanother, hmethod⟩

theorem getLast?_alignedAddresses {module : Module}
    (hmethod : method < resolver.graph.methods.size) (hown : resolver.ownAddress? method = none)
    (honce : (resolver.graph.listedMethods module).count method = 1) :
    (resolver.alignedAddresses method module).getLast? =
      resolver.rankedAddress? module (resolver.graph.rankOf module method) := by
  have hdirect : isDirect resolver.directOutcomes method = false := by
    rw [isDirect_directOutcomes hmethod, hown]
    rfl
  rw [← valuesFor_moduleAddresses 0 hdirect, ← lookup_reverse_eq_getLast?]
  exact lookup_eq_of_mem_iff fun address => mem_moduleAddresses_iff honce hdirect

theorem methodAddress?_eq_some_iff {type : Nat} (howned : resolver.graph.Owned)
    (hmethod : method < resolver.graph.methods.size) (hown : resolver.ownAddress? method = none)
    (hlisted : ∀ other, resolver.graph.ListsMethod other method → other = type) :
    resolver.resolve.methodAddress? method = some address ↔
      LastGives (fun module => resolver.GivesAddress module method) address := by
  rw [methodAddress?_eq_or_getLast? hmethod, hown, Option.none_or]
  refine getLast?_flatMap_eq_some_iff fun module given => exists_congr fun found => ?_
  rw [Array.getElem?_toList]
  refine and_congr_right fun _ => ?_
  by_cases hmem : method ∈ resolver.graph.listedMethods found
  · rw [getLast?_alignedAddresses hmethod hown (count_listedMethods howned hlisted hmem),
      and_iff_right hmem]
  · have hnone : method ∉ resolver.graph.methodsOf found := mt TypeGraph.mem_methodsOf.mp hmem
    rw [alignedAddresses_eq_nil hnone]
    simp [hmem]

end Methods

section Graph

variable {metadata : Metadata} {graph : TypeGraph}

theorem covers_of_givesAddress {resolver : Resolver} {type module : Nat}
    (hlisted : ∀ other, resolver.graph.ListsMethod other method → other = type)
    (h : resolver.GivesAddress module method address) : resolver.graph.Covers module type := by
  obtain ⟨found, hmodule, hmem, -⟩ := h
  obtain ⟨other, hother, hlists⟩ := mem_listedMethods_iff.mp hmem
  obtain rfl := hlisted other hlists
  exact ⟨found, hmodule, hother⟩

/-- A blob with two types that list the same field, the first of them generic, and with two modules
that both cover the two types. The second type has a method. -/
def overlappingBlob : Metadata where
  data := ⟨#[97, 0, 98, 0]⟩
  header := ⟨Header.expectedSanity, 29, .v29_0, [(.strings, ⟨0, 4⟩)]⟩
  tables := [
    (.methods, #[[-1, 1, 0, 0, -1, 1, 0, 0, 0, 0]]),
    (.fields, #[[-1, 0, 0]]),
    (.genericParameters, #[[0, -1, 0, 0, 0, 0]]),
    (.genericContainers, #[[0, 1, 0, 0]]),
    (.typeDefinitions, #[
      [-1, -1, 0, -1, -1, -1, 0, 0, 0, 0, 0, 0, 0, 0, 0, 0, 0, 0, 1, 0, 0, 0, 0, 0, 0, 0],
      [-1, -1, 0, -1, -1, -1, -1, 0, 0, 0, 0, 0, 0, 0, 0, 0, 1, 0, 1, 0, 0, 0, 0, 0, 0, 0]]),
    (.images, #[[0, 0, 0, 2, 0, 0, 0, 0, 0, 0], [2, 0, 0, 2, 0, 0, 0, 0, 0, 0]]),
    (.typeReferences, #[[0, 0, 8, 0]])]

def overlappingGraph : TypeGraph where
  release := .v29_0
  modules := #[⟨"a", 0, 2, 0⟩, ⟨"b", 0, 2, 0⟩]
  types := #[⟨"", "", some 0, none, none, [0], [], [], [], [], [0], 0, 0, 0⟩,
    ⟨"", "", some 0, none, none, [0], [0], [], [], [], [], 0, 0, 0⟩]
  methods := #[⟨"", 1, 0, [], [], 0, 0, 0, 1⟩]
  fields := #[⟨"", some 0, 0, 0, 0, none⟩]
  properties := #[]
  genericParameters := #[⟨"", 0, false, 0, 0, []⟩]
  references := #[⟨8, .nothing, false, 0⟩]
  instantiations := #[]
  methodSpecs := #[]
  literals := #[]
  methodAddresses := #[]

theorem build_overlappingBlob :
    (TypeGraph.build overlappingBlob).outcome.1 = .ok overlappingGraph := by
  rw [TypeGraph.outcome_build]
  cbv

/-- A pointer for the method in each of both modules, and an array of offsets for each type. -/
def overlappingRegistrations : Registrations where
  code := some ⟨0, [], [⟨0, "a", [0x1011]⟩, ⟨0, "b", [0x1021]⟩], #[]⟩
  metadata := some ⟨0, [], [], #[0x2004, 0x2000]⟩
  issues := []

def overlappingResolver : Resolver where
  machine := codeImage.machine
  memory := codeImage.memory
  graph := overlappingGraph
  registrations := overlappingRegistrations

/-- A field takes its offset from the last type that gives one to it, although its declaring type is
the first one that lists it. If no type behind the declaring one gives an offset, it is that of the
declaring type, so that the fields of a generic type have none. -/
theorem fieldOffsets_of_build (image : Image) (registrations : Registrations)
    (hgraph : (TypeGraph.build metadata).outcome.1 = .ok graph) :
    let resolver : Resolver :=
      { machine := image.machine, memory := image.memory, graph, registrations }
    ∀ field definition, graph.fields[field]? = some definition →
      (∀ type, definition.declaringType = some type ↔
        IsLeast {type | graph.ListsField type field} type) ∧
      (∀ offset, resolver.resolve.fieldOffset? field = some offset ↔
        LastGives (fun type => resolver.GivesOffset type field) offset) ∧
      ∀ type, definition.declaringType = some type →
        (∀ later, type < later → ∀ given, ¬resolver.GivesOffset later field given) →
          ∀ offset, resolver.resolve.fieldOffset? field = some offset ↔
            resolver.GivesOffset type field offset := by
  intro resolver field definition hfield
  have howned := TypeGraph.owned_of_build hgraph
  have hoffset : ∀ offset, resolver.resolve.fieldOffset? field = some offset ↔
      LastGives (fun type => resolver.GivesOffset type field) offset := fun _ =>
    fieldOffset?_eq_some_iff howned (Array.getElem?_eq_some_iff.mp hfield).1
  refine ⟨howned.declaringType hfield, hoffset, fun type htype hbehind offset => ?_⟩
  obtain ⟨-, hleast⟩ := (howned.declaringType hfield type).mp htype
  rw [hoffset]
  exact lastGives_iff_of_first
    (fun _ _ hgives => hleast (listsField_of_givesOffset hgives)) hbehind

theorem fieldOffsets_overlappingBlob :
    IsLeast {type | overlappingGraph.ListsField type 0} 0 ∧
      (∀ offset, ¬overlappingResolver.GivesOffset 0 0 offset) ∧
        overlappingResolver.resolve.fieldOffset? 0 = some 8 := by
  obtain ⟨hdeclaring, hoffset, -⟩ :=
    fieldOffsets_of_build codeImage overlappingRegistrations build_overlappingBlob 0 _ rfl
  have hread : overlappingResolver.memory.readInts 0x2000 1 "field_offsets" = .ok [8] := by
    have hspace : codeImage.memory.space.byAddress = codeImage.segments := by cbv
    rw [overlappingResolver, Memory.readInts, Memory.readWords, Memory.readBytes,
      Memory.segmentFor?, AddressSpace.segmentAt?, AddressSpace.lastFrom?, hspace]
    decide +kernel
  have hgives : overlappingResolver.GivesOffset 1 0 8 :=
    ⟨_, _, 0x2000, [8], 0, rfl, rfl, rfl, rfl, by decide, hread, rfl, rfl⟩
  refine ⟨(hdeclaring 0).mp rfl, ?_, (hoffset 8).mpr ⟨1, ⟨⟨8, hgives⟩, ?_⟩, hgives⟩⟩
  · rintro offset ⟨metadata, definition, pointer, offsets, place, -, htype, hgeneric, -⟩
    obtain rfl := Option.some.inj htype
    cases hgeneric
  · rintro later ⟨offset, hlater⟩
    obtain ⟨definition, htype, -⟩ := listsField_of_givesOffset hlater
    exact Nat.le_of_lt_succ (Array.getElem?_eq_some_iff.mp htype).1

/-- A method without an address of its own takes the one that the last module gives to it, although
the module of its type is the first one that covers the type. If no module behind that one gives an
address, it is the one that the pointers of that module give. -/
theorem heuristicAddresses_of_build (image : Image) (registrations : Registrations)
    (hgraph : (TypeGraph.build metadata).outcome.1 = .ok graph) :
    let resolver : Resolver :=
      { machine := image.machine, memory := image.memory, graph, registrations }
    ∀ method type definition, graph.types[type]? = some definition →
      (∀ other, graph.ListsMethod other method ↔ other = type) →
      resolver.ownAddress? method = none →
        (∀ module, definition.module = some module ↔
          IsLeast {module | graph.Covers module type} module) ∧
        (∀ address, resolver.resolve.methodAddress? method = some address ↔
          LastGives (fun module => resolver.GivesAddress module method) address) ∧
        ∀ module, definition.module = some module →
          (∀ later, module < later → ∀ given, ¬resolver.GivesAddress later method given) →
            ∀ address, resolver.resolve.methodAddress? method = some address ↔
              resolver.GivesAddress module method address := by
  intro resolver method type definition htype hlisted hown
  have howned := TypeGraph.owned_of_build hgraph
  have hmethod : method < graph.methods.size := by
    obtain ⟨found, hfound, hmem⟩ := (hlisted type).mpr rfl
    obtain ⟨links, hlinked⟩ := TypeGraph.exists_linked_of_build hgraph
    have hclosed := (TypeGraph.closed_of_linked hlinked).types found
      (Array.mem_of_getElem? hfound)
    exact hclosed.methods method hmem
  have haddress : ∀ address, resolver.resolve.methodAddress? method = some address ↔
      LastGives (fun module => resolver.GivesAddress module method) address := fun _ =>
    methodAddress?_eq_some_iff howned hmethod hown fun other => (hlisted other).mp
  refine ⟨howned.module htype, haddress, fun module hmodule hbehind address => ?_⟩
  obtain ⟨-, hleast⟩ := (howned.module htype module).mp hmodule
  rw [haddress]
  exact lastGives_iff_of_first
    (fun _ _ hgives => hleast (covers_of_givesAddress (fun other => (hlisted other).mp) hgives))
    hbehind

/-- The type of the method is in the first module, but the method has the address that the second
module gives. -/
theorem heuristicAddresses_overlappingBlob :
    IsLeast {module | overlappingGraph.Covers module 1} 0 ∧
      overlappingResolver.GivesAddress 0 0 0x1010 ∧
        overlappingResolver.resolve.methodAddress? 0 = some 0x1020 := by
  have hlisted : ∀ other, overlappingGraph.ListsMethod other 0 ↔ other = 1 := by
    intro other
    constructor
    · rintro ⟨definition, htype, hmem⟩
      match other with
      | 0 =>
          obtain rfl := Option.some.inj htype
          cases hmem
      | 1 => rfl
    · rintro rfl
      exact ⟨_, rfl, .head _⟩
  obtain ⟨hmodule, haddress, -⟩ := heuristicAddresses_of_build codeImage overlappingRegistrations
    build_overlappingBlob 0 1 _ rfl hlisted rfl
  have hgives : overlappingResolver.GivesAddress 1 0 0x1020 :=
    ⟨_, rfl, by decide, by cbv⟩
  refine ⟨(hmodule 0).mp rfl, ⟨_, rfl, by decide, by cbv⟩,
    (haddress _).mpr ⟨1, ⟨⟨_, hgives⟩, ?_⟩, hgives⟩⟩
  rintro later ⟨address, found, hlater, -⟩
  exact Nat.le_of_lt_succ (Array.getElem?_eq_some_iff.mp hlater).1

end Graph

end Resolver

end TypeAtlas
