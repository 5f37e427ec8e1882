import TypeAtlas.Proofs.Linking.Closed
import TypeAtlas.Proofs.Resolution.Generics

namespace TypeAtlas

section Attaching

variable {resolver : Resolver} {resolution : Resolution}

theorem Resolution.attachTo_attachTo (resolution other : Resolution) (graph : TypeGraph) :
    resolution.attachTo (other.attachTo graph) = resolution.attachTo graph :=
  rfl

@[simp]
theorem TypeGraph.methodAddress?_attachTo (graph : TypeGraph) (method : Nat) :
    (resolution.attachTo graph).methodAddress? method =
      if method < graph.methods.size then resolution.methodAddress? method else none := by
  unfold TypeGraph.methodAddress? Resolution.attachTo
  by_cases hlt : method < graph.methods.size <;> simp [hlt]

namespace Resolver

theorem directOutcomes_attach :
    (resolver.attach resolution).directOutcomes = resolver.directOutcomes :=
  rfl

theorem allModuleOutcomes_attach (outcomes : Array Outcome) :
    (resolver.attach resolution).allModuleOutcomes outcomes =
      resolver.allModuleOutcomes outcomes :=
  rfl

theorem genericFrom_attach (pointers : Array Nat) (found : List (Nat × Int)) (index : Nat)
    (entries : List GenericMethodEntry) :
    (resolver.attach resolution).genericFrom pointers found index entries =
      resolver.genericFrom pointers found index entries := by
  induction entries generalizing found index with
  | nil => rfl
  | cons entry entries ih =>
      rw [genericFrom, genericFrom]
      simp only [ih]
      rfl

theorem allTypeOffsets_attach :
    (resolver.attach resolution).allTypeOffsets = resolver.allTypeOffsets :=
  rfl

/-- What has been attached to a graph does not change what is resolved. -/
theorem resolve_attach : (resolver.attach resolution).resolve = resolver.resolve := by
  have hgenerics : (resolver.attach resolution).generics = resolver.generics := by
    unfold generics
    simp only [genericFrom_attach]
    rfl
  simp only [resolve, directOutcomes_attach, allModuleOutcomes_attach, hgenerics,
    allTypeOffsets_attach]
  rfl

end Resolver

end Attaching

/-- An address lies in an executable segment of an image, and it is even if the image is for a
32-bit ARM machine. -/
structure Image.HasCodeAt (image : Image) (address : Int) : Prop where
  executable : ∃ segment ∈ image.segments,
    segment.contains address = true ∧ segment.isExecutable = true
  even : image.machine = .arm → address % 2 = 0

namespace Resolver

variable {resolver : Resolver} {method : Nat} {address : Int}

section Tables

variable {values : List (Nat × Int)} {size row : Nat}

theorem mem_of_join_tableOf {value : Int}
    (h : ((tableOf size values)[row]?).join = some value) : (row, value) ∈ values := by
  by_cases hrow : row < size
  · rw [getElem?_tableOf values hrow] at h
    exact mem_of_lookup_reverse h
  · rw [Array.getElem?_eq_none (by rw [size_tableOf]; omega)] at h
    cases h

theorem isSome_join_tableOf_iff (hrow : row < size) :
    ((tableOf size values)[row]?).join.isSome = true ↔ ∃ value, (row, value) ∈ values := by
  constructor
  · intro h
    obtain ⟨value, hvalue⟩ := Option.isSome_iff_exists.mp h
    exact ⟨value, mem_of_join_tableOf hvalue⟩
  · rintro ⟨value, hmem⟩
    rw [getElem?_tableOf values hrow, Option.join_some, Option.isSome_iff_ne_none]
    intro hnone
    have hne := List.lookup_eq_none_iff.mp hnone (row, value) (List.mem_reverse.mpr hmem)
    simp at hne

/-- Values for rows of a table fill as many of its rows as they have different rows. -/
theorem rowCount_eq_countP (hrows : ∀ value ∈ values, value.1 < size) :
    rowCount values =
      (List.range size).countP fun row => ((tableOf size values)[row]?).join.isSome := by
  have hkeys : (Std.HashMap.ofList values).keys.Nodup := Std.HashMap.nodup_keys
  rw [rowCount, ← Std.HashMap.length_keys, List.countP_eq_length_filter]
  refine List.Perm.length_eq ?_
  rw [List.perm_ext_iff_of_nodup hkeys (List.nodup_range.filter _)]
  intro row
  rw [Std.HashMap.mem_keys, Std.HashMap.mem_ofList, List.contains_iff_mem, List.mem_filter,
    List.mem_range]
  constructor
  · intro h
    obtain ⟨⟨_, value⟩, hmem, rfl⟩ := List.mem_map.mp h
    have hrow := hrows _ hmem
    exact ⟨hrow, (isSome_join_tableOf_iff hrow).mpr ⟨value, hmem⟩⟩
  · rintro ⟨hrow, h⟩
    obtain ⟨value, hmem⟩ := (isSome_join_tableOf_iff hrow).mp h
    exact List.mem_map.mpr ⟨(row, value), hmem, rfl⟩

end Tables

section Code

theorem even_target (harm : resolver.machine = .arm) (pointer : Nat) :
    resolver.target pointer % 2 = 0 := by
  rw [target, if_pos harm]
  omega

theorem hasCodeAt_of_executable? {image : Image} {pointer : Nat}
    (hmachine : resolver.machine = image.machine) (hmemory : resolver.memory = image.memory)
    (h : resolver.executable? pointer = some address) : image.HasCodeAt address := by
  obtain ⟨hexecutable, rfl⟩ := executable?_eq_some_iff.mp h
  refine ⟨?_, fun harm => even_target (hmachine.trans harm) pointer⟩
  rw [hmemory, AddressSpace.isExecutable, Option.any_eq_true] at hexecutable
  obtain ⟨segment, hsegment, hcode⟩ := hexecutable
  have hmem := AddressSpace.mem_ofSegments.mp (AddressSpace.mem_of_segmentAt? hsegment)
  exact ⟨segment, hmem, AddressSpace.contains_of_segmentAt? hsegment, hcode⟩

end Code

section Methods

theorem address?_aligned_eq_some {outcomes : Array Outcome} {pointer : Nat}
    (h : (resolver.aligned outcomes method pointer).address? = some address) :
    isDirect outcomes method = false ∧ resolver.executable? pointer = some address := by
  cases hdirect : isDirect outcomes method with
  | true =>
      rw [aligned, hdirect, Bool.true_or, if_pos rfl] at h
      cases h
  | false =>
      rw [address?_aligned pointer hdirect] at h
      split at h
      · cases h
      · exact ⟨rfl, h⟩

theorem exists_module_of_mem_moduleGiven (h : (method, address) ∈ resolver.moduleGiven) :
    (∃ module, method ∈ resolver.graph.listedMethods module) ∧
      isDirect resolver.directOutcomes method = false ∧
        ∃ pointer, resolver.executable? pointer = some address := by
  simp only [moduleGiven, allModuleOutcomes, List.flatMap_map, List.mem_flatMap] at h
  obtain ⟨⟨module, index⟩, -, h⟩ := h
  obtain ⟨hlisted, pointer, haligned⟩ := exists_aligned_of_mem h
  obtain ⟨hdirect, hpointer⟩ := address?_aligned_eq_some haligned
  exact ⟨⟨module, hlisted⟩, hdirect, pointer, hpointer⟩

theorem exists_executable_of_ownAddress? (h : resolver.ownAddress? method = some address) :
    ∃ pointer, resolver.executable? pointer = some address := by
  unfold ownAddress? at h
  obtain ⟨entry, -, h⟩ := Option.bind_eq_some_iff.mp h
  split at h
  · cases h
  · exact ⟨entry, h⟩

theorem exists_executable_of_methodAddress?
    (h : resolver.resolve.methodAddress? method = some address) :
    ∃ pointer, resolver.executable? pointer = some address := by
  by_cases hmethod : method < resolver.graph.methods.size
  · rw [methodAddress?_eq_or hmethod, Option.or_eq_some_iff] at h
    rcases h with hown | ⟨-, hgiven⟩
    · exact exists_executable_of_ownAddress? hown
    · obtain ⟨-, -, hpointer⟩ := exists_module_of_mem_moduleGiven (mem_of_lookup_reverse hgiven)
      exact hpointer
  · rw [methodAddress?_eq_none_of_size_le (Nat.le_of_not_lt hmethod)] at h
    cases h

/-- The methods with an address are those with an entry of their own and those that a module gives
one to, and no method is both. -/
theorem countP_methodAddress? :
    (List.range resolver.graph.methods.size).countP
        (fun method => (resolver.resolve.methodAddress? method).isSome) =
      (List.range resolver.graph.methods.size).countP
          (fun method => (resolver.ownAddress? method).isSome) +
        (List.range resolver.graph.methods.size).countP
          (fun method => (resolver.moduleGiven.reverse.lookup method).isSome) := by
  rw [List.countP_eq_countP_filter_add _ _ fun method => (resolver.ownAddress? method).isSome,
    List.countP_filter, List.countP_filter]
  refine congrArg₂ (· + ·) (List.countP_congr ?_) (List.countP_congr ?_)
  · intro method hmethod
    rw [methodAddress?_eq_or (List.mem_range.mp hmethod)]
    cases resolver.ownAddress? method <;> simp
  · intro method hmethod
    rw [methodAddress?_eq_or (List.mem_range.mp hmethod)]
    cases hown : resolver.ownAddress? method with
    | none => simp
    | some own =>
        cases hgiven : resolver.moduleGiven.reverse.lookup method with
        | none => simp
        | some given =>
            obtain ⟨-, hdirect, -⟩ :=
              exists_module_of_mem_moduleGiven (mem_of_lookup_reverse hgiven)
            rw [isDirect_directOutcomes (List.mem_range.mp hmethod), hown] at hdirect
            cases hdirect

theorem directMethods_resolve :
    resolver.resolve.report.directMethods =
      (List.range resolver.graph.methods.size).countP
        fun method => (resolver.ownAddress? method).isSome := by
  change resolver.directOutcomes.countP (fun outcome => outcome.address?.isSome) = _
  rw [directOutcomes, Array.countP_map, ← Array.countP_toList, Array.toList_range]
  refine List.countP_congr fun method _ => ?_
  rw [Function.comp_apply, address?_direct]

theorem heuristicMethods_resolve
    (hrows : ∀ given ∈ resolver.moduleGiven, given.1 < resolver.graph.methods.size) :
    resolver.resolve.report.heuristicMethods =
      (List.range resolver.graph.methods.size).countP
        fun method => (resolver.moduleGiven.reverse.lookup method).isSome := by
  change rowCount resolver.moduleGiven = _
  rw [rowCount_eq_countP hrows]
  refine List.countP_congr fun method hmethod => ?_
  rw [getElem?_tableOf _ (List.mem_range.mp hmethod), Option.join_some]

end Methods

section Generics

/-- A row gives an address to the instantiation of a method spec. -/
def GivesGeneric (resolver : Resolver) (given : Nat × Int) : Prop :=
  given.1 ∈ resolver.graph.methodSpecs ∧ ∃ pointer, resolver.executable? pointer = some given.2

theorem givesGeneric_of_mem {given : Nat × Int} (h : given ∈ resolver.generics.1) :
    resolver.GivesGeneric given := by
  cases hcode : resolver.registrations.code with
  | none =>
      rw [generics, hcode] at h
      cases h
  | some code =>
      cases hmetadata : resolver.registrations.metadata with
      | none =>
          rw [generics, hcode, hmetadata] at h
          cases h
      | some metadata =>
          rw [mem_generics_fst_iff hcode hmetadata] at h
          obtain ⟨entry, -, hgives⟩ := List.exists_of_findSome?_eq_some h
          obtain ⟨pointer, hrefers, -, hpointer⟩ := givenBy?_eq_some_iff.mp hgives
          exact ⟨Array.mem_of_getElem? hrefers.spec, pointer, hpointer⟩

end Generics

theorem exists_type_of_mem_offsets {field : Nat} {offset : Int}
    (h : (field, offset) ∈ (resolver.allTypeOffsets.filterMap Except.toOption).flatten) :
    ∃ type ∈ resolver.graph.types, field ∈ type.fields := by
  obtain ⟨offsets, hoffsets, hmem⟩ := List.mem_flatten.mp h
  obtain ⟨result, hresult, hok⟩ := List.mem_filterMap.mp hoffsets
  unfold allTypeOffsets at hresult
  split at hresult
  · cases hresult
  · next metadata _ =>
      obtain ⟨⟨type, index⟩, htype, rfl⟩ := List.mem_map.mp hresult
      rw [List.mem_zipIdx_iff_getElem?, Array.getElem?_toList] at htype
      have hgiven : (field, offset) ∈
          ((resolver.typeOffsets metadata.fieldOffsets index type).toOption.getD []) := by
        rwa [hok]
      obtain ⟨_, _, _, -, -, hfield, -⟩ := mem_typeOffsets_iff.mp hgiven
      exact ⟨type, Array.mem_of_getElem? htype, List.mem_of_getElem? hfield⟩

section Graph

variable {metadata : Metadata} {graph : TypeGraph}

/-- The number of entries of a table that something is known of. -/
def knownCount (table : Nat → Option Int) (size : Nat) : Nat :=
  (List.range size).countP fun number => (table number).isSome

theorem knownCount_eq_countP (table : Nat → Option Int) (size : Nat) :
    knownCount table size = ((List.range size).map table).countP Option.isSome := by
  rw [List.countP_map]
  rfl

/-- What is attached to a graph on an image: addresses of code, and to instantiations of methods
only. A report counts the methods, the instantiations and the fields that something is attached
to. -/
theorem resolve_attaches (image : Image) (registrations : Registrations)
    (hgraph : (TypeGraph.build metadata).outcome.1 = .ok graph) :
    let resolver : Resolver :=
      { machine := image.machine, memory := image.memory, graph, registrations }
    let resolution := resolver.resolve
    (∀ method address, resolution.methodAddress? method = some address →
        image.HasCodeAt address) ∧
      (∀ number address, resolution.genericAddress? number = some address →
        image.HasCodeAt address ∧ ∃ instantiation,
          graph.instantiations[number]? = some instantiation ∧ instantiation.isMethod = true) ∧
      resolution.report.directMethods + resolution.report.heuristicMethods =
        knownCount resolution.methodAddress? graph.methods.size ∧
      resolution.report.genericMethods =
        knownCount resolution.genericAddress? graph.instantiations.size ∧
      resolution.report.fieldOffsets = knownCount resolution.fieldOffset? graph.fields.size := by
  intro resolver resolution
  obtain ⟨links, hlinked⟩ := TypeGraph.exists_linked_of_build hgraph
  have hclosed := TypeGraph.closed_of_linked hlinked
  have hgeneric : ∀ {given : Nat × Int}, given ∈ resolver.generics.1 → ∃ instantiation,
      graph.instantiations[given.1]? = some instantiation ∧ instantiation.isMethod = true :=
    fun hgiven => hclosed.methodSpecs _ (givesGeneric_of_mem hgiven).1
  refine ⟨?_, ?_, ?_, ?_, ?_⟩
  · intro method address haddress
    obtain ⟨pointer, hpointer⟩ := exists_executable_of_methodAddress? haddress
    exact hasCodeAt_of_executable? rfl rfl hpointer
  · intro number address haddress
    have hgiven : (number, address) ∈ resolver.generics.1 := mem_of_join_tableOf haddress
    obtain ⟨-, pointer, hpointer⟩ := givesGeneric_of_mem hgiven
    exact ⟨hasCodeAt_of_executable? rfl rfl hpointer, hgeneric hgiven⟩
  · have hrows : ∀ given ∈ resolver.moduleGiven, given.1 < graph.methods.size := by
      rintro ⟨method, address⟩ hgiven
      obtain ⟨⟨module, hlisted⟩, -⟩ := exists_module_of_mem_moduleGiven hgiven
      exact TypeGraph.lt_of_mem_listedMethods hclosed hlisted
    rw [directMethods_resolve, heuristicMethods_resolve hrows]
    exact countP_methodAddress?.symm
  · refine rowCount_eq_countP fun given hgiven => ?_
    obtain ⟨instantiation, hfound, -⟩ := hgeneric hgiven
    exact (Array.getElem?_eq_some_iff.mp hfound).1
  · refine rowCount_eq_countP ?_
    rintro ⟨field, offset⟩ hgiven
    obtain ⟨type, htype, hfield⟩ := exists_type_of_mem_offsets hgiven
    exact (hclosed.types type htype).fields field hfield

/-- An image for a 32-bit ARM machine with a code segment, and with the offsets of four fields in a
data segment. -/
def codeImage : Image where
  data := ⟨#[8, 0, 0, 0, 12, 0, 0, 0, 16, 0, 0, 0, 20, 0, 0, 0]⟩
  container := .elf
  machine := .arm
  width := .bits32
  base := 0
  segments := [⟨"text", 0, 0, 0x1000, 0x100, ⟨true, false, true⟩⟩,
    ⟨"data", 0, 16, 0x2000, 16, ⟨true, false, false⟩⟩]
  isDumped := false

/-- A pointer for the one method of the small blob and one for its instantiation, both with the
lowest bit set, and the offsets of the fields of its second type. -/
def codeRegistrations : Registrations where
  code := some ⟨0, [], [⟨0, "", [0x1011]⟩], #[0x1021]⟩
  metadata := some ⟨0, [], [⟨0, 0, []⟩], #[0, 0x2000]⟩
  issues := []

def codeResolver : Resolver where
  machine := codeImage.machine
  memory := codeImage.memory
  graph := TypeGraph.smallGraph
  registrations := codeRegistrations

theorem allTypeOffsets_codeResolver :
    codeResolver.allTypeOffsets = [.ok [], .ok [(0, 8), (1, 12), (2, 16), (3, 20)]] := by
  have hread : codeImage.memory.readInts 0x2000 4 "field_offsets" = .ok [8, 12, 16, 20] := by
    have hspace : codeImage.memory.space.byAddress = codeImage.segments := by cbv
    rw [Memory.readInts, Memory.readWords, Memory.readBytes, Memory.segmentFor?,
      AddressSpace.segmentAt?, AddressSpace.lastFrom?, hspace]
    decide +kernel
  have hreads : ReadsFrom #[0, 0x2000] 1 TypeGraph.smallGraph.types[1] 0x2000 :=
    ⟨rfl, by decide, rfl, by decide⟩
  change [Except.ok [], codeResolver.typeOffsets #[0, 0x2000] 1 TypeGraph.smallGraph.types[1]] = _
  rw [typeOffsets_of_readInts hreads hread]
  rfl

theorem resolve_attaches_smallBlob :
    let resolution := codeResolver.resolve
    (List.range 1).map resolution.methodAddress? = [some 0x1010] ∧
      (List.range 2).map resolution.genericAddress? = [none, some 0x1020] ∧
      (List.range 4).map resolution.fieldOffset? = [some 8, some 12, some 16, some 20] ∧
      codeImage.HasCodeAt 0x1010 ∧ codeImage.HasCodeAt 0x1020 ∧
      resolution.report.directMethods + resolution.report.heuristicMethods = 1 ∧
      resolution.report.genericMethods = 1 ∧ resolution.report.fieldOffsets = 4 := by
  obtain ⟨hmethods, hinstantiations, hdirectCount, hgenericCount, hoffsetCount⟩ :=
    resolve_attaches codeImage codeRegistrations TypeGraph.build_smallBlob
  have hmethod : (List.range 1).map codeResolver.resolve.methodAddress? = [some 0x1010] := by
    change [codeResolver.resolve.methodAddress? 0] = _
    rw [methodAddress?_eq_or Nat.zero_lt_one]
    cbv
  have hgenerics : (List.range 2).map codeResolver.resolve.genericAddress? =
      [none, some 0x1020] := by
    change (List.range 2).map (fun number =>
      ((tableOf 2 codeResolver.generics.1)[number]?).join) = _
    cbv
  have hfields : (List.range 4).map codeResolver.resolve.fieldOffset? =
      [some 8, some 12, some 16, some 20] := by
    change (List.range 4).map (fun field => ((tableOf 4
      (codeResolver.allTypeOffsets.filterMap Except.toOption).flatten)[field]?).join) = _
    rw [allTypeOffsets_codeResolver]
    decide +kernel
  rw [knownCount_eq_countP] at hdirectCount hgenericCount hoffsetCount
  refine ⟨hmethod, hgenerics, hfields, hmethods 0 _ (List.cons.inj hmethod).1, ?_, ?_, ?_, ?_⟩
  · exact (hinstantiations 1 _ (List.cons.inj (List.cons.inj hgenerics).2).1).1
  · exact hdirectCount.trans (congrArg (List.countP Option.isSome) hmethod)
  · exact hgenericCount.trans (congrArg (List.countP Option.isSome) hgenerics)
  · exact hoffsetCount.trans (congrArg (List.countP Option.isSome) hfields)

end Graph

end Resolver

end TypeAtlas
