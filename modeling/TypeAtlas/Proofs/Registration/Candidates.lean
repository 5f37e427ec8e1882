import TypeAtlas.Proofs.Registration.Arrays
import TypeAtlas.Proofs.Registration.Discovery
import TypeAtlas.Proofs.Session.Stages
/-!
Which candidate a scan takes. A scan accepts a structure by some of its slots and takes the first
one that it accepts. Whether that one can be read as a whole is found out later, and no other
candidate is tried then.
-/

namespace TypeAtlas

namespace Scan

open Memory

variable {memory : Memory} {graph : TypeGraph} {address : Int}

/-- The distance of a slot from the start of a metadata registration. -/
def metadataSlot (memory : Memory) (graph : TypeGraph) (name : String) : Nat :=
  Slots.distance graph.release.metadataRegistrationSlots name memory.width

/-- What a scan takes for a metadata registration: two of its slots count the types of a graph,
which has some, and a third one is an address in a segment. -/
structure CountsTypes (memory : Memory) (graph : TypeGraph) (address : Int) : Prop where
  types : 0 < graph.types.size
  count : StoredAt memory (address + metadataSlot memory graph "field_offsets_count")
    graph.types.size
  slots : ∃ slots, Slots.read memory graph.release.metadataRegistrationSlots address "pointers" =
      .ok slots ∧
    slots.value "type_definitions_sizes_count" = graph.types.size ∧
      ∃ segment ∈ memory.space.byAddress, segment.contains (slots.value "field_offsets") = true

/-- The metadata registrations that a scan accepts, in its order. -/
def metadataCandidates (memory : Memory) (graph : TypeGraph) : List Int :=
  let slot : Nat := metadataSlot memory graph "field_offsets_count"
  if graph.types.size = 0 then []
  else
    ((pointersTo memory graph.types.size).map (· - (slot : Int))).filter (countsTypes memory graph)

/-- The code registrations that a scan accepts, in its order: that of the arrays of modules, and for
each of them that of the pointers to it. -/
def codeCandidates (memory : Memory) (graph : TypeGraph) : List Int :=
  let slot : Nat := codeSlot memory graph "code_gen_modules"
  (arrays memory graph).flatMap fun array =>
    ((pointersTo memory array).map (· - (slot : Int))).filter (countsModules memory graph)

section Metadata

theorem metadata_isOk_iff :
    (∃ found, metadata memory graph = .ok found) ↔ Fits memory.width graph.types.size := by
  refine ⟨?_, metadata_isOk_of_fits⟩
  rintro ⟨found, h⟩
  rw [metadata] at h
  split at h
  · next hnone =>
      rw [hnone]
      exact ⟨le_rfl, by positivity⟩
  · obtain ⟨locations, hlocations⟩ := map_isOk_iff.mp ⟨found, h⟩
    exact (findPointer_eq_ok_iff.mp hlocations).1

theorem metadata_eq (hcount : Fits memory.width graph.types.size) :
    metadata memory graph = .ok (metadataCandidates memory graph).head? := by
  rw [metadata, metadataCandidates]
  split
  · rfl
  · rw [findPointer_eq_ok_iff.mpr ⟨hcount, rfl⟩, List.head?_filter]
    rfl

theorem countsTypes_iff (h : memory.Laid) : countsTypes memory graph address = true ↔
    ∃ slots, Slots.read memory graph.release.metadataRegistrationSlots address "pointers" =
        .ok slots ∧
      slots.value "type_definitions_sizes_count" = graph.types.size ∧
        ∃ segment ∈ memory.space.byAddress,
          segment.contains (slots.value "field_offsets") = true := by
  unfold countsTypes
  cases Slots.read memory graph.release.metadataRegistrationSlots address "pointers" with
  | error fault => simp
  | ok slots =>
      simp only [Bool.and_eq_true, beq_iff_eq, Option.isSome_iff_exists, segmentAt?_eq_some_iff h,
        Except.ok.injEq, exists_eq_left']

theorem mem_metadataCandidates_iff (h : memory.Laid) (hcount : Fits memory.width graph.types.size) :
    address ∈ metadataCandidates memory graph ↔ CountsTypes memory graph address := by
  have hvalue : graph.types.size < 256 ^ memory.width.bytes := by exact_mod_cast hcount.2
  rw [metadataCandidates]
  split
  · next hnone =>
      simp only [List.not_mem_nil, false_iff]
      intro hcounts
      exact absurd hnone hcounts.types.ne'
  · next hsome =>
      simp only [List.mem_filter, List.mem_map, countsTypes_iff h, mem_pointersTo_iff h hvalue]
      constructor
      · rintro ⟨⟨location, hlocation, rfl⟩, hslots⟩
        exact ⟨Nat.pos_of_ne_zero hsome, by rwa [sub_add_cancel], hslots⟩
      · rintro ⟨-, hlocation, hslots⟩
        exact ⟨⟨_, hlocation, add_sub_cancel_right _ _⟩, hslots⟩

theorem pairwise_metadataCandidates (h : memory.Laid) :
    (metadataCandidates memory graph).Pairwise (· < ·) := by
  rw [metadataCandidates]
  split
  · exact .nil
  · refine List.Pairwise.filter _ (List.pairwise_map.mpr ?_)
    exact (pairwise_findAligned h (ofNat_ne_nil _ _)).imp fun hlt => by omega

theorem head?_eq_some_iff_isLeast {items : List Int} (hsorted : items.Pairwise (· < ·)) :
    items.head? = some address ↔ IsLeast {item | item ∈ items} address := by
  cases items with
  | nil => simp [IsLeast]
  | cons first items =>
      have hleast : IsLeast {item | item ∈ first :: items} first := by
        refine ⟨List.mem_cons_self, fun item hitem => ?_⟩
        rcases List.mem_cons.mp hitem with rfl | hitem
        · exact le_rfl
        · exact (List.rel_of_pairwise_cons hsorted hitem).le
      rw [List.head?_cons, Option.some.injEq]
      constructor
      · rintro rfl
        exact hleast
      · exact hleast.unique

theorem metadata_eq_ok_iff (h : memory.Laid) (hcount : Fits memory.width graph.types.size) :
    metadata memory graph = .ok (some address) ↔
      IsLeast {candidate | CountsTypes memory graph candidate} address := by
  rw [metadata_eq hcount, Except.ok.injEq,
    head?_eq_some_iff_isLeast (pairwise_metadataCandidates h)]
  simp only [mem_metadataCandidates_iff h hcount]

end Metadata

section Code

theorem mem_codeCandidates_iff : address ∈ codeCandidates memory graph ↔
    countsModules memory graph address = true ∧ ∃ array ∈ arrays memory graph,
      address + codeSlot memory graph "code_gen_modules" ∈ pointersTo memory array := by
  simp only [codeCandidates, List.mem_flatMap, List.mem_filter, List.mem_map]
  constructor
  · rintro ⟨array, harray, ⟨location, hlocation, rfl⟩, hcounts⟩
    exact ⟨hcounts, array, harray, by rwa [sub_add_cancel]⟩
  · rintro ⟨hcounts, array, harray, hlocation⟩
    exact ⟨array, harray, ⟨_, hlocation, add_sub_cancel_right _ _⟩, hcounts⟩

/-- A scan takes the first code registration that it accepts. -/
theorem code_eq_head? (hfit : SegmentsFit memory) :
    code memory graph = .ok (codeCandidates memory graph).head? := by
  rw [code_eq hfit, codeCandidates, List.head?_flatMap]
  simp only [List.head?_filter]
  rfl

end Code

end Scan

namespace Registrations

open Memory

variable {memory : Memory} {graph : TypeGraph} {hints : Hints} {symbols : List Symbol}
  {found : Registrations}

/-- What discovery does with the candidates of a scan: it reads the first one. If that fails, it
leaves an issue, and no registration is located. -/
structure ReadsFirst {α : Type} (first : Int → Prop) (read : Int → Except Fault α)
    (what table : String) (located : Option α) (issues : List Fault) : Prop where
  located_iff : ∀ registration, located = some registration ↔
    ∃ address, first address ∧ read address = .ok registration
  unreadable : ∀ address fault, first address → read address = .error fault →
    Registrations.unreadable what table address fault ∈ issues

theorem locatedMetadata_iff {address : Option Int} {registration : MetadataRegistration} :
    (readMetadata memory graph.release address).1 = some registration ↔
      ∃ place, address = some place ∧
        MetadataRegistration.read memory graph.release place = .ok registration := by
  cases address with
  | none => simp [readMetadata]
  | some place =>
      simp only [readMetadata, Option.some.injEq, exists_eq_left']
      cases MetadataRegistration.read memory graph.release place with
      | error fault => simp
      | ok other => simp

theorem locatedCode_iff {address : Option Int} {registration : CodeRegistration} :
    (readCode memory graph.release address).1 = some registration ↔
      ∃ place, address = some place ∧
        (CodeRegistration.read memory graph.release place).1 = .ok registration := by
  cases address with
  | none => simp [readCode]
  | some place =>
      simp only [readCode, Option.some.injEq, exists_eq_left']
      rcases CodeRegistration.read memory graph.release place with ⟨_ | other, issues⟩
      · simp
      · simp

theorem mem_issues_of_readCode {address : Int} {fault : Fault}
    (h : (CodeRegistration.read memory graph.release address).1 = .error fault) :
    Registrations.unreadable "code registration" "code_registration" address fault ∈
      (readCode memory graph.release (some address)).2 := by
  simp only [readCode]
  rcases hread : CodeRegistration.read memory graph.release address with ⟨_ | other, issues⟩
  · rw [hread] at h
    obtain rfl := Except.error.inj h
    exact List.mem_append_right _ (List.mem_singleton_self _)
  · rw [hread] at h
    cases h

theorem readsFirst_metadata (h : memory.Laid) (hgiven : ¬Given (metadataHints hints symbols))
    (hfound : find memory graph hints symbols = .ok found) :
    ReadsFirst (IsLeast {address | Scan.CountsTypes memory graph address})
      (MetadataRegistration.read memory graph.release) "metadata registration"
      "metadata_registration" found.metadata found.issues := by
  have hissues : ∀ fault, fault ∈ found.issues ↔ Failure memory graph hints symbols fault :=
    fun _ => mem_issues_find_iff hfound
  rw [find_eq] at hfound
  obtain ⟨codeAt, -, hfound⟩ := bind_eq_ok hfound
  obtain ⟨metadataAt, hmetadata, hfound⟩ := bind_eq_ok hfound
  have haddress := hmetadata
  rw [metadataAddress, firstAddress_of_not_given hgiven] at haddress
  -- A scan answers only if the number of types fits, so that need not be assumed here.
  have hcount := Scan.metadata_isOk_iff.mp ⟨metadataAt, haddress⟩
  have hfirst : ∀ address, metadataAt = some address ↔
      IsLeast {address | Scan.CountsTypes memory graph address} address := fun address => by
    rw [← Scan.metadata_eq_ok_iff h hcount, haddress, Except.ok.injEq]
  constructor
  · intro registration
    simp only [← hfirst]
    obtain rfl := Except.ok.inj hfound
    exact locatedMetadata_iff
  · intro address fault hleast hread
    rw [(hfirst address).mpr hleast] at hmetadata
    exact (hissues _).mpr (.metadata hmetadata (.unreadable hread))

theorem readsFirst_code (hfit : Scan.SegmentsFit memory)
    (hgiven : ¬Given (codeHints hints symbols))
    (hfound : find memory graph hints symbols = .ok found) :
    ReadsFirst (fun address => (Scan.codeCandidates memory graph).head? = some address)
      (fun address => (CodeRegistration.read memory graph.release address).1)
      "code registration" "code_registration" found.code found.issues := by
  rw [find_eq, codeAddress, firstAddress_of_not_given hgiven, Scan.code_eq_head? hfit, ok_bind]
    at hfound
  obtain ⟨metadataAt, -, hfound⟩ := bind_eq_ok hfound
  obtain rfl := Except.ok.inj hfound
  refine ⟨fun registration => locatedCode_iff, fun address fault hfirst hread => ?_⟩
  rw [hfirst]
  exact List.mem_append_left _ (mem_issues_of_readCode hread)

theorem find_isOk_iff_of_segmentsFit (hfit : Scan.SegmentsFit memory) :
    (∃ found, find memory graph hints symbols = .ok found) ↔
      Given (metadataHints hints symbols) ∨ Scan.Fits memory.width graph.types.size := by
  have hmetadata : (∃ found, metadataAddress memory graph hints symbols = .ok found) ↔
      Given (metadataHints hints symbols) ∨ Scan.Fits memory.width graph.types.size := by
    rw [← Scan.metadata_isOk_iff]
    exact firstAddress_isOk_iff
  obtain ⟨codeAt, hcode⟩ : ∃ found, codeAddress memory graph hints symbols = .ok found :=
    firstAddress_isOk_iff.mpr (Or.inr ⟨_, Scan.code_eq_head? hfit⟩)
  rw [← hmetadata, find_eq, hcode, ok_bind]
  constructor
  · rintro ⟨found, hfound⟩
    obtain ⟨metadataAt, haddress, -⟩ := bind_eq_ok hfound
    exact ⟨metadataAt, haddress⟩
  · rintro ⟨metadataAt, haddress⟩
    rw [haddress]
    exact ⟨_, rfl⟩

section Images

variable {parsers : Parsers} {data : ByteArray} {dumpBase : Option Int} {image : Image}

/-- Discovery answers if the number of types fits the width of pointers. Where neither an option nor
a symbol gives an address, it reads the first candidate of a scan and no other one: the lowest
metadata registration that the scan accepts, and the code registration that it meets first. -/
theorem locate_readsFirst (hload : (Image.load parsers data dumpBase).outcome.1 = .ok image)
    (hfit : ∀ segment ∈ image.segments, ∀ address, segment.contains address = true →
      Scan.Fits image.width address)
    (hsymbols : symbolsOf parsers image hints.symbolSearch = .ok symbols) :
    ((∃ found, (locate parsers image graph hints).outcome.1 = .ok found) ↔
      Given (metadataHints hints symbols) ∨ Scan.Fits image.width graph.types.size) ∧
    ∀ found, (locate parsers image graph hints).outcome.1 = .ok found →
      (¬Given (metadataHints hints symbols) →
        ReadsFirst (IsLeast {address | Scan.CountsTypes image.memory graph address})
          (MetadataRegistration.read image.memory graph.release) "metadata registration"
          "metadata_registration" found.metadata found.issues) ∧
      (¬Given (codeHints hints symbols) →
        ReadsFirst (fun address => (Scan.codeCandidates image.memory graph).head? = some address)
          (fun address => (CodeRegistration.read image.memory graph.release address).1)
          "code registration" "code_registration" found.code found.issues) := by
  have hlaid := laid_of_load hload
  have hsegments := Scan.segmentsFit_of_load hload hfit
  have houtcome : (locate parsers image graph hints).outcome.1 =
      find image.memory graph hints symbols := by
    rw [outcome_locate, hsymbols, ok_bind]
  rw [houtcome]
  refine ⟨find_isOk_iff_of_segmentsFit hsegments, fun found hfound => ⟨fun hgiven => ?_,
    fun hgiven => ?_⟩⟩
  · exact readsFirst_metadata hlaid hgiven hfound
  · exact readsFirst_code hsegments hgiven hfound

/-- A file for a 32-bit machine with a segment behind its headers. The segment holds a module at 4,
the array of it at 16, and two registrations of each kind: code registrations at 20 and 28, metadata
registrations at 84 and 104. The first of each points to a table that is in no segment. -/
def decoyFile : ByteArray :=
  ⟨#[0x7F, 0x45, 0x4C, 0x46, 1, 1, 1, 0, 0, 0, 0, 0, 0, 0, 0, 0, 2, 0, 3, 0, 1, 0, 0, 0, 0, 0, 0, 0,
    0x34, 0, 0, 0, 0, 0, 0, 0, 0, 0, 0, 0, 0x34, 0, 0x20, 0, 1, 0, 0x28, 0, 0, 0, 0, 0, 1, 0, 0, 0,
    0x54, 0, 0, 0, 0, 0, 0x40, 0, 0, 0, 0x40, 0, 0x80, 0, 0, 0, 0x80, 0, 0, 0, 6, 0, 0, 0, 4, 0, 0,
    0, 0x6D, 0, 0, 0, 0, 0, 0x40, 0, 0, 0, 0, 0, 0, 0, 0, 0, 4, 0, 0x40, 0, 0, 0, 0, 0, 0, 0, 0, 0,
    1, 0, 0, 0, 0, 0, 0, 0, 0, 0, 0, 0, 0, 0, 0, 0, 0, 0, 0, 0, 0, 0, 0, 0, 0, 0, 0, 0, 0, 0, 0, 0,
    0, 0, 0, 0, 0, 0, 0, 0, 1, 0, 0, 0, 0x10, 0, 0x40, 0, 1, 0, 0, 0, 0x10, 0, 0x40, 0, 1, 0, 0, 0,
    0, 0, 0, 0, 2, 0, 0, 0, 0x28, 0, 0x40, 0, 2, 0, 0, 0, 0, 0, 0, 0, 0, 0, 0, 0, 2, 0, 0, 0, 0x28,
    0, 0x40, 0, 2, 0, 0, 0, 0, 0, 0, 0]⟩

def decoyImage : Image where
  data := decoyFile
  container := .elf
  machine := .x86
  width := .bits32
  base := 0x3FFFAC
  segments := [⟨"LOAD0", 84, 128, 0x400000, 128, ⟨true, true, false⟩⟩]
  isDumped := false

def decoyType : TypeDefinition := ⟨"t", "", some 0, none, none, [], [], [], [], [], [], 0, 0, 0⟩

def decoyGraph : TypeGraph :=
  Scan.bareGraph #[⟨"m", 0, 2, 0⟩] #[decoyType, decoyType]

set_option maxRecDepth 4000 in
theorem load_decoyFile : (Image.load formatParsers decoyFile none).outcome.1 = .ok decoyImage := by
  have hdeclared : Elf.declaration formatParsers decoyFile =
      .ok ⟨.x86, .bits32, 0x3FFFAC, [⟨"LOAD0", 84, 128, 0x400000, 128, ⟨true, true, false⟩⟩]⟩ := by
    cbv
  exact Image.load_eq_ok_iff.mpr ⟨.elf, _, by cbv, hdeclared, by cbv⟩

theorem fits_decoyImage : ∀ segment ∈ decoyImage.segments, ∀ address,
    segment.contains address = true → Scan.Fits decoyImage.width address := by
  rw [decoyImage, List.forall_mem_singleton]
  exact fun address => Scan.fits_of_contains (by decide) (by decide)

theorem symbolsOf_decoyImage : symbolsOf formatParsers decoyImage true = .ok [] := by decide +kernel

theorem not_given_decoyImage :
    ¬Given (metadataHints {} []) ∧ ¬Given (codeHints {} []) := by
  simp [Given, metadataHints, codeHints, Symbol.lookup?]

theorem readsFirst_decoyImage : ∃ found,
    (locate formatParsers decoyImage decoyGraph {}).outcome.1 = .ok found ∧
    ReadsFirst (IsLeast {address | Scan.CountsTypes decoyImage.memory decoyGraph address})
      (MetadataRegistration.read decoyImage.memory decoyGraph.release) "metadata registration"
      "metadata_registration" found.metadata found.issues ∧
    ReadsFirst
      (fun address => (Scan.codeCandidates decoyImage.memory decoyGraph).head? = some address)
      (fun address => (CodeRegistration.read decoyImage.memory decoyGraph.release address).1)
      "code registration" "code_registration" found.code found.issues := by
  obtain ⟨hanswers, hreads⟩ :=
    @locate_readsFirst decoyGraph {} [] formatParsers decoyFile none decoyImage load_decoyFile
      fits_decoyImage symbolsOf_decoyImage
  obtain ⟨found, hfound⟩ := hanswers.mpr (Or.inr ⟨by decide, by decide⟩)
  obtain ⟨hmetadata, hcode⟩ := hreads found hfound
  exact ⟨found, hfound, hmetadata not_given_decoyImage.1, hcode not_given_decoyImage.2⟩

/-- The first registration of each kind hides the second one, which could be read. -/
theorem hidden_decoyImage :
    (Image.load formatParsers decoyFile none).outcome.1 = .ok decoyImage ∧
      (∀ segment ∈ decoyImage.segments, ∀ address, segment.contains address = true →
        Scan.Fits decoyImage.width address) ∧
      symbolsOf formatParsers decoyImage true = .ok [] ∧
      (∃ address registration, Scan.CountsTypes decoyImage.memory decoyGraph address ∧
        MetadataRegistration.read decoyImage.memory decoyGraph.release address =
          .ok registration) ∧
      (∃ address ∈ Scan.codeCandidates decoyImage.memory decoyGraph, ∃ registration,
        (CodeRegistration.read decoyImage.memory decoyGraph.release address).1 =
          .ok registration) ∧
      ∃ found, (locate formatParsers decoyImage decoyGraph {}).outcome.1 = .ok found ∧
        found.metadata = none ∧ found.code = none := by
  have hmetadata : Scan.CountsTypes decoyImage.memory decoyGraph 0x400068 :=
    { types := by decide
      count := by decide +kernel
      slots := (Scan.countsTypes_iff (laid_of_load load_decoyFile)).mp (by decide +kernel) }
  have hcode : 0x40001C ∈ Scan.codeCandidates decoyImage.memory decoyGraph :=
    Scan.mem_codeCandidates_iff.mpr
      ⟨by decide +kernel, 0x400010, by decide +kernel, by decide +kernel⟩
  have hfind : find decoyImage.memory decoyGraph {} [] = .ok
      { code := none, metadata := none
        issues :=
          [unreadable "code registration" "code_registration" 0x400014
              (outside 0 4 "generic_method_pointers"),
            unreadable "metadata registration" "metadata_registration" 0x400054
              (outside 0 16 "generic_method_table")] } := by
    decide +kernel
  have hlocate : (locate formatParsers decoyImage decoyGraph {}).outcome.1 =
      find decoyImage.memory decoyGraph {} [] := by
    rw [outcome_locate]
    exact congrArg (· >>= find decoyImage.memory decoyGraph {}) symbolsOf_decoyImage
  refine ⟨load_decoyFile, fits_decoyImage, symbolsOf_decoyImage, ?_, ?_, _,
    hlocate.trans hfind, rfl, rfl⟩
  · exact ⟨0x400068, ⟨0x400068, Release.v27_0.metadataRegistrationSlots.zip
      [0, 0, 2, 0x400028, 2, 0], [], #[0, 0]⟩, hmetadata, by decide +kernel⟩
  · exact ⟨0x40001C, hcode, ⟨0x40001C, Release.v27_0.codeRegistrationSlots.zip
      [1, 0, 0, 0, 0, 0, 0, 0, 0, 0, 1, 0x400010, 1, 0x400010], [⟨0x400004, "m", []⟩], #[]⟩,
      by decide +kernel⟩

end Images

end Registrations

end TypeAtlas
