import TypeAtlas.Proofs.Image.Reading
import TypeAtlas.Proofs.Registration.Search

namespace TypeAtlas.Scan

open Memory

variable {memory : Memory} {graph : TypeGraph} {names : List String} {release : Release}
  {address slot array found : Int} {count value : Nat}

/-- The distance of a slot from the start of a code registration. -/
def codeSlot (memory : Memory) (graph : TypeGraph) (name : String) : Nat :=
  Slots.distance graph.release.codeRegistrationSlots name memory.width

/-- A pointer can be read at an address. -/
def PointsTo (memory : Memory) (address : Int) (value : Nat) : Prop :=
  memory.readPointer address "pointer" = .ok value

/-- A pointer stands at an address that is aligned and not executed. -/
def StoredAt (memory : Memory) (address : Int) (value : Nat) : Prop :=
  PointsTo memory address value ∧ memory.InData address

instance : Decidable (memory.InData address) :=
  inferInstanceAs (Decidable (∃ _ ∈ _, _))

instance : Decidable (StoredAt memory address value) :=
  inferInstanceAs (Decidable (_ = _ ∧ _))

/-- The structure at an address starts with a pointer to a text that is the name of a module. -/
def LeadsToModule (memory : Memory) (names : List String) (address : Int) : Prop :=
  ∃ (text : Nat) (bytes : ByteArray), PointsTo memory address text ∧
    memory.readBytes text (bytes.size + 1 : Nat) "string" =
      .ok (bytes.toList ++ [0]).toByteArray ∧ Text.decode bytes.toList ∈ names

/-- The structure at an address starts with a pointer to the bytes of the name of a module, which
end with the first zero byte. -/
def IsModule (memory : Memory) (names : List String) (address : Int) : Prop :=
  ∃ (text : Nat) (name : String), StoredAt memory address text ∧ name ∈ names ∧
    0 ∉ name.toUTF8.toList ∧ name.toUTF8.size < maxTextSize ∧
      memory.readBytes text (name.toUTF8.size + 1 : Nat) "string" =
        .ok (terminated name).toByteArray

/-- A code registration: it counts the modules of a graph, and points to as many modules. -/
structure Registered (memory : Memory) (graph : TypeGraph) (address : Int) : Prop where
  count : StoredAt memory (address + codeSlot memory graph "code_gen_modules_count")
    graph.modules.size
  modules : ∃ array : Nat,
    StoredAt memory (address + codeSlot memory graph "code_gen_modules") array ∧
    ∀ i < graph.modules.size, ∃ module : Nat,
      StoredAt memory (array + (i * memory.width.bytes : Nat)) module ∧
        IsModule memory (moduleNames graph) module

/-- What a scan takes for a code registration: it counts the modules of a graph, and points to at
least one module and at most as many as it counts. -/
structure Accepted (memory : Memory) (graph : TypeGraph) (address : Int) : Prop where
  count : PointsTo memory (address + codeSlot memory graph "code_gen_modules_count")
    graph.modules.size
  modules : ∃ array length : Nat,
    PointsTo memory (address + codeSlot memory graph "code_gen_modules") array ∧
      1 ≤ length ∧ length ≤ graph.modules.size ∧
        ∀ i < length, ∃ module : Nat,
          PointsTo memory (array + (i * memory.width.bytes : Nat)) module ∧
            LeadsToModule memory (moduleNames graph) module

section Walk

theorem distance_module_name (release : Release) (width : PointerWidth) :
    Slots.distance release.codeGenModuleSlots "module_name" width = 0 := by
  have hfirst : release.codeGenModuleSlots.idxOf "module_name" = 0 := by
    rw [Release.codeGenModuleSlots, List.cons_append, List.cons_append, List.cons_append]
    exact List.idxOf_cons_self
  rw [Slots.distance, hfirst, Nat.zero_mul]

theorem leadsToName_iff : leadsToName memory release names address = true ↔
    ∃ (text : Nat) (name : String), PointsTo memory address text ∧
      memory.readText text "string" = .ok (some name) ∧ name ∈ names := by
  unfold leadsToName PointsTo
  rw [distance_module_name]
  dsimp only
  rw [Nat.cast_zero, add_zero]
  cases memory.readPointer address "pointer" with
  | error fault => simp [Except.bind]
  | ok text =>
      simp only [Except.bind, Except.ok.injEq]
      split <;> simp_all

theorem arrayStart_succ {module : Nat}
    (hread : PointsTo memory (slot - memory.width.bytes) module)
    (hleads : leadsToName memory release names module = true) :
    arrayStart memory release names slot (count + 1) =
      arrayStart memory release names (slot - memory.width.bytes) count := by
  unfold PointsTo at hread
  simp only [arrayStart, hread, hleads, if_true]

theorem arrayStart_of_forall (h : ∀ i < count, ∃ module : Nat,
    PointsTo memory (array + (i * memory.width.bytes : Nat)) module ∧
      leadsToName memory release names module = true) :
    arrayStart memory release names (array + (count * memory.width.bytes : Nat)) count = array := by
  induction count with
  | zero => simp [arrayStart]
  | succ count ih =>
      obtain ⟨module, hread, hleads⟩ := h count (Nat.lt_succ_self _)
      have hbefore : array + ((count + 1) * memory.width.bytes : Nat) - memory.width.bytes =
          array + (count * memory.width.bytes : Nat) := by
        rw [Nat.succ_mul]
        omega
      rw [← hbefore] at hread
      rw [arrayStart_succ hread hleads, hbefore]
      exact ih fun i hi => h i (Nat.lt_succ_of_lt hi)

theorem exists_arrayStart (memory : Memory) (release : Release) (names : List String) (slot : Int)
    (count : Nat) :
    ∃ steps ≤ count, arrayStart memory release names slot count +
        (steps * memory.width.bytes : Nat) = slot ∧
      ∀ i < steps, ∃ module : Nat,
        PointsTo memory (arrayStart memory release names slot count +
          (i * memory.width.bytes : Nat)) module ∧
            leadsToName memory release names module = true := by
  -- A walk that stops has passed nothing; one that goes on has passed the slot before, from which
  -- the rest of the walk starts.
  induction count generalizing slot with
  | zero => exact ⟨0, le_rfl, by simp [arrayStart], by simp⟩
  | succ count ih =>
      have hstay : ∃ steps ≤ count + 1, slot + (steps * memory.width.bytes : Nat) = slot ∧
          ∀ i < steps, ∃ module : Nat,
            PointsTo memory (slot + (i * memory.width.bytes : Nat)) module ∧
              leadsToName memory release names module = true :=
        ⟨0, Nat.zero_le _, by simp, by simp⟩
      simp only [arrayStart]
      split
      · next module hread =>
          split
          · next hleads =>
              obtain ⟨steps, hle, hslot, hpassed⟩ := ih (slot - memory.width.bytes)
              refine ⟨steps + 1, by omega, by rw [Nat.succ_mul]; omega, fun i hi => ?_⟩
              rcases Nat.lt_succ_iff_lt_or_eq.mp hi with hlt | rfl
              · exact hpassed i hlt
              · exact ⟨module, by rwa [hslot], hleads⟩
          · exact hstay
      · exact hstay

end Walk

section Laid

variable (h : memory.Laid)

include h

theorem leadsToModule_of_leadsToName (hleads : leadsToName memory release names address = true) :
    LeadsToModule memory names address := by
  obtain ⟨text, name, hpointer, htext, hname⟩ := leadsToName_iff.mp hleads
  obtain ⟨bytes, rfl, -, -, hbytes⟩ := (readText_eq_ok_iff h).mp htext
  exact ⟨text, bytes, hpointer, hbytes, hname⟩

theorem leadsToName_of_isModule (hmodule : IsModule memory names address) :
    leadsToName memory release names address = true := by
  obtain ⟨text, name, ⟨hpointer, -⟩, hname, hzero, hsize, hbytes⟩ := hmodule
  refine leadsToName_iff.mpr ⟨text, name, hpointer, ?_, hname⟩
  exact (readText_eq_ok_iff h).mpr ⟨name.toUTF8, Text.decode_toUTF8 name, hsize, hzero, hbytes⟩

theorem mem_pointersTo_iff (hvalue : value < 256 ^ memory.width.bytes) :
    address ∈ pointersTo memory value ↔ StoredAt memory address value := by
  rw [pointersTo, Int.toNat_natCast, mem_findAligned_iff h (ofNat_ne_nil _ _) "pointer", StoredAt,
    PointsTo, readPointer_eq_ok_iff h, Bytes.length_ofNat]
  simp only [hvalue, true_and]

theorem mem_pointersTo_of_storedAt (hstored : StoredAt memory address value) :
    address ∈ pointersTo memory value :=
  (mem_pointersTo_iff h ((readPointer_eq_ok_iff h).mp hstored.1).1).mpr hstored

theorem pointsTo_of_mem_pointersTo {target : Int} (hfits : Fits memory.width target)
    (hmem : address ∈ pointersTo memory target) :
    ∃ value : Nat, (value : Int) = target ∧ PointsTo memory address value := by
  obtain ⟨hnonneg, hlt⟩ := hfits
  have hvalue : (target.toNat : Int) = target := Int.toNat_of_nonneg hnonneg
  rw [← hvalue] at hmem hlt
  exact ⟨target.toNat, hvalue, ((mem_pointersTo_iff h (by exact_mod_cast hlt)).mp hmem).1⟩

end Laid

section Search

theorem length_terminated (name : String) : (terminated name).length = name.toUTF8.size + 1 :=
  Bytes.length_toList_concat _ _

theorem mem_texts_iff {text : Int} : text ∈ texts memory graph ↔
    ∃ name ∈ moduleNames graph, text ∈ memory.findBytes (terminated name) :=
  List.mem_flatMap

theorem mem_arrays_iff : array ∈ arrays memory graph ↔
    ∃ text ∈ texts memory graph, ∃ module ∈ pointersTo memory text,
      ∃ slot ∈ pointersTo memory module,
        arrayStart memory graph.release (moduleNames graph) slot (graph.modules.size - 1) =
          array := by
  rw [arrays, List.mem_eraseDups]
  simp only [List.mem_flatMap, arraysFrom, arraysAt, List.mem_map]

theorem codeFrom_eq {items : List Int} (hfits : ∀ array ∈ items, Fits memory.width array) :
    codeFrom memory graph items = .ok (items.findSome? (registrationOf? memory graph)) := by
  induction items with
  | nil => rfl
  | cons array items ih =>
      obtain ⟨hfirst, hrest⟩ := List.forall_mem_cons.mp hfits
      rw [codeFrom_cons hfirst, List.findSome?_cons]
      cases registrationOf? memory graph array with
      | some address => rfl
      | none => exact ih hrest

theorem fits_of_mem_arrays (hfit : SegmentsFit memory) (harray : array ∈ arrays memory graph) :
    Fits memory.width array := by
  obtain ⟨_, -, _, -, slot, hslot, rfl⟩ := mem_arrays_iff.mp harray
  exact fits_arrayStart hfit (fits_of_mem_pointersTo hfit hslot) _

theorem code_eq (hfit : SegmentsFit memory) :
    code memory graph = .ok ((arrays memory graph).findSome? (registrationOf? memory graph)) := by
  rw [code, moduleArrays_eq_ok_iff.mpr ⟨(codeFits_of_segmentsFit hfit).texts, rfl⟩, ok_bind]
  exact codeFrom_eq fun _ harray => fits_of_mem_arrays hfit harray

theorem countsModules_iff : countsModules memory graph address = true ↔
    PointsTo memory (address + codeSlot memory graph "code_gen_modules_count")
      graph.modules.size := by
  unfold countsModules PointsTo codeSlot
  dsimp only
  cases memory.readPointer (address + (Slots.distance graph.release.codeRegistrationSlots
    "code_gen_modules_count" memory.width : Nat)) "pointer" with
  | error fault => simp
  | ok count => simp

theorem registrationOf?_isSome_iff : (registrationOf? memory graph array).isSome = true ↔
    ∃ address : Int, address + codeSlot memory graph "code_gen_modules" ∈ pointersTo memory array ∧
      countsModules memory graph address = true := by
  rw [registrationOf?, List.find?_isSome]
  simp only [List.mem_map]
  constructor
  · rintro ⟨address, ⟨location, hlocation, rfl⟩, hcounts⟩
    exact ⟨_, by rwa [codeSlot, sub_add_cancel], hcounts⟩
  · rintro ⟨address, hlocation, hcounts⟩
    exact ⟨address, ⟨_, hlocation, add_sub_cancel_right _ _⟩, hcounts⟩

theorem of_registrationOf?_eq_some (hfound : registrationOf? memory graph array = some found) :
    found + codeSlot memory graph "code_gen_modules" ∈ pointersTo memory array ∧
      countsModules memory graph found = true := by
  obtain ⟨location, hlocation, rfl⟩ := List.mem_map.mp (List.mem_of_find?_eq_some hfound)
  exact ⟨by rwa [codeSlot, sub_add_cancel], List.find?_some hfound⟩

end Search

section Results

variable (h : memory.Laid)

include h

theorem mem_arrays_of_modules (hsize : 0 < graph.modules.size)
    (hmodules : ∀ i < graph.modules.size, ∃ module : Nat,
      StoredAt memory (array + (i * memory.width.bytes : Nat)) module ∧
        IsModule memory (moduleNames graph) module) :
    array ∈ arrays memory graph := by
  -- The last module of the array leads to its first slot.
  obtain ⟨module, hslot, hmodule⟩ := hmodules (graph.modules.size - 1) (by omega)
  obtain ⟨text, name, htext, hname, -, -, hbytes⟩ := hmodule
  have hfound : (text : Int) ∈ memory.findBytes (terminated name) := by
    rw [mem_findBytes_iff h (terminated_ne_nil name) "string", length_terminated]
    exact hbytes
  refine mem_arrays_iff.mpr ⟨text, mem_texts_iff.mpr ⟨name, hname, hfound⟩, module,
    mem_pointersTo_of_storedAt h htext, _, mem_pointersTo_of_storedAt h hslot,
    arrayStart_of_forall fun i hi => ?_⟩
  obtain ⟨earlier, hearlier, hmodule⟩ := hmodules i (by omega)
  exact ⟨earlier, hearlier.1, leadsToName_of_isModule h hmodule⟩

/-- A scan finds a code registration if there is one. -/
theorem code_of_registered (hfit : SegmentsFit memory) (hsize : 0 < graph.modules.size)
    (hregistered : Registered memory graph address) :
    ∃ found, code memory graph = .ok (some found) := by
  obtain ⟨array, harray, hmodules⟩ := hregistered.modules
  have hregistration : (registrationOf? memory graph array).isSome = true :=
    registrationOf?_isSome_iff.mpr ⟨address, mem_pointersTo_of_storedAt h harray,
      countsModules_iff.mpr hregistered.count.1⟩
  have hsome : ((arrays memory graph).findSome? (registrationOf? memory graph)).isSome = true :=
    List.findSome?_isSome_iff.mpr ⟨array, mem_arrays_of_modules h hsize hmodules, hregistration⟩
  obtain ⟨found, hfound⟩ := Option.isSome_iff_exists.mp hsome
  exact ⟨found, by rw [code_eq hfit, hfound]⟩

theorem leadsToModule_of_mem_texts (hfit : SegmentsFit memory) {text : Int}
    (htext : text ∈ texts memory graph) (hmodule : address ∈ pointersTo memory text) :
    LeadsToModule memory (moduleNames graph) address := by
  obtain ⟨name, hname, hfound⟩ := mem_texts_iff.mp htext
  have hfits := fits_of_mem_findBytes hfit (terminated_ne_nil name) hfound
  obtain ⟨value, rfl, hpointer⟩ := pointsTo_of_mem_pointersTo h hfits hmodule
  have hbytes := (mem_findBytes_iff h (terminated_ne_nil name) "string").mp hfound
  rw [length_terminated] at hbytes
  exact ⟨value, name.toUTF8, hpointer, hbytes, by rwa [Text.decode_toUTF8]⟩

theorem exists_run_of_mem_arrays (hfit : SegmentsFit memory) (hsize : 0 < graph.modules.size)
    (harray : array ∈ arrays memory graph) :
    ∃ length, 1 ≤ length ∧ length ≤ graph.modules.size ∧
      ∀ i < length, ∃ module : Nat,
        PointsTo memory (array + (i * memory.width.bytes : Nat)) module ∧
          LeadsToModule memory (moduleNames graph) module := by
  obtain ⟨text, htext, target, htarget, slot, hslot, rfl⟩ := mem_arrays_iff.mp harray
  obtain ⟨steps, hle, hstart, hpassed⟩ := exists_arrayStart memory graph.release
    (moduleNames graph) slot (graph.modules.size - 1)
  obtain ⟨module, rfl, hpointer⟩ :=
    pointsTo_of_mem_pointersTo h (fits_of_mem_pointersTo hfit htarget) hslot
  refine ⟨steps + 1, by omega, by omega, fun i hi => ?_⟩
  rcases Nat.lt_succ_iff_lt_or_eq.mp hi with hlt | rfl
  · obtain ⟨module, hread, hleads⟩ := hpassed i hlt
    exact ⟨module, hread, leadsToModule_of_leadsToName h hleads⟩
  · exact ⟨module, by rwa [hstart], leadsToModule_of_mem_texts h hfit htext htarget⟩

/-- What a scan finds counts the modules and points to a run of them. -/
theorem accepted_of_code (hfit : SegmentsFit memory) (hsize : 0 < graph.modules.size)
    (hfound : code memory graph = .ok (some found)) : Accepted memory graph found := by
  rw [code_eq hfit, Except.ok.injEq] at hfound
  obtain ⟨array, harray, hregistration⟩ := List.exists_of_findSome?_eq_some hfound
  obtain ⟨hlocation, hcounts⟩ := of_registrationOf?_eq_some hregistration
  obtain ⟨length, hpos, hle, hrun⟩ := exists_run_of_mem_arrays h hfit hsize harray
  obtain ⟨start, rfl, hpointer⟩ :=
    pointsTo_of_mem_pointersTo h (fits_of_mem_arrays hfit harray) hlocation
  exact ⟨countsModules_iff.mp hcounts, start, length, hpointer, hpos, hle, hrun⟩

end Results

section Images

variable {parsers : Parsers} {data : ByteArray} {dumpBase : Option Int} {image : Image}

theorem fits_of_contains {segment : Segment} {width : PointerWidth}
    (hstart : 0 ≤ segment.virtualAddress) (hstop : segment.stop ≤ 256 ^ width.bytes)
    (h : segment.contains address = true) : Fits width address := by
  obtain ⟨hle, hlt⟩ := Segment.contains_iff.mp h
  exact ⟨hstart.trans hle, hlt.trans_le hstop⟩

theorem segmentsFit_of_load (hload : (Image.load parsers data dumpBase).outcome.1 = .ok image)
    (hfit : ∀ segment ∈ image.segments, ∀ address, segment.contains address = true →
      Fits image.width address) : SegmentsFit image.memory := by
  intro segment hsegment
  have hplaced := (laid_of_load hload).placed segment hsegment
  have hpos := hplaced.virtualSize_pos
  have hle := hplaced.fileSize_le
  have hcontained : ∀ address, segment.virtualAddress ≤ address → address < segment.stop →
      Fits image.width address := fun address hstart hstop =>
    hfit segment (AddressSpace.mem_ofSegments.mp hsegment) address
      (Segment.contains_iff.mpr ⟨hstart, hstop⟩)
  unfold Segment.stop at hcontained
  obtain ⟨hnonneg, -⟩ := hcontained segment.virtualAddress le_rfl (by omega)
  obtain ⟨-, hlast⟩ := hcontained (segment.virtualAddress + segment.virtualSize - 1) (by omega)
    (by omega)
  change _ < (256 : Int) ^ image.memory.width.bytes at hlast
  refine ⟨hnonneg, ?_⟩
  unfold Segment.fileStop
  omega

/-- A scan of an image whose addresses fit the width of its pointers finds a code registration if
there is one, and whatever it finds counts the modules and points to a run of them. -/
theorem code_finds_registered (hload : (Image.load parsers data dumpBase).outcome.1 = .ok image)
    (hfit : ∀ segment ∈ image.segments, ∀ address, segment.contains address = true →
      Fits image.width address) (hsize : 0 < graph.modules.size) :
    ((∃ address, Registered image.memory graph address) →
      ∃ found, code image.memory graph = .ok (some found)) ∧
        ∀ found, code image.memory graph = .ok (some found) →
          Accepted image.memory graph found := by
  have hlaid := laid_of_load hload
  have hsegments := segmentsFit_of_load hload hfit
  refine ⟨?_, fun found hfound => accepted_of_code hlaid hsegments hsize hfound⟩
  rintro ⟨address, hregistered⟩
  exact code_of_registered hlaid hsegments hsize hregistered

/-- A file for a 32-bit machine with two module structures at 88 and 92, the array of them at 96,
and the last two slots of a code registration at 104. -/
def registeredFile : ByteArray :=
  ⟨#[0x7F, 0x45, 0x4C, 0x46, 1, 1, 1, 0, 0, 0, 0, 0, 0, 0, 0, 0, 2, 0, 3, 0, 1, 0, 0, 0,
    0, 0, 0, 0, 52, 0, 0, 0, 0, 0, 0, 0, 0, 0, 0, 0, 52, 0, 32, 0, 1, 0, 40, 0, 0, 0, 0, 0,
    1, 0, 0, 0, 0, 0, 0, 0, 0, 0, 0x40, 0, 0, 0, 0x40, 0, 112, 0, 0, 0, 112, 0, 0, 0, 6, 0, 0, 0,
    4, 0, 0, 0, 0x6D, 0, 0x6E, 0, 84, 0, 0x40, 0, 86, 0, 0x40, 0, 88, 0, 0x40, 0, 92, 0, 0x40, 0,
    2, 0, 0, 0, 96, 0, 0x40, 0]⟩

def registeredImage : Image where
  data := registeredFile
  container := .elf
  machine := .x86
  width := .bits32
  base := 0x400000
  segments := [⟨"LOAD0", 0, 112, 0x400000, 112, ⟨true, true, false⟩⟩]
  isDumped := false

/-- A graph of nothing but modules and types. -/
def bareGraph (modules : Array Module) (types : Array TypeDefinition) : TypeGraph where
  release := .v27_0
  modules
  types
  methods := #[]
  fields := #[]
  properties := #[]
  genericParameters := #[]
  references := #[]
  instantiations := #[]
  methodSpecs := #[]
  literals := #[]
  methodAddresses := #[]

/-- A graph with two modules, in another order than their names have in the file. -/
def registeredGraph : TypeGraph :=
  bareGraph #[⟨"n", 0, 0, 0⟩, ⟨"m", 0, 0, 0⟩] #[]

theorem registered_registeredImage :
    Registered registeredImage.memory registeredGraph 0x400038 where
  count := by decide +kernel
  modules := by
    refine ⟨0x400060, by decide +kernel, fun i hi => ?_⟩
    change i < 2 at hi
    interval_cases i
    · exact ⟨0x400058, by decide +kernel, 0x400054, "m", by decide +kernel⟩
    · exact ⟨0x40005C, by decide +kernel, 0x400056, "n", by decide +kernel⟩

set_option maxRecDepth 2000 in
theorem load_registeredFile :
    (Image.load formatParsers registeredFile none).outcome.1 = .ok registeredImage := by
  have hdeclared : Elf.declaration formatParsers registeredFile =
      .ok ⟨.x86, .bits32, 0x400000, [⟨"LOAD0", 0, 112, 0x400000, 112, ⟨true, true, false⟩⟩]⟩ := by
    cbv
  exact Image.load_eq_ok_iff.mpr ⟨.elf, _, by cbv, hdeclared, by cbv⟩

theorem code_finds_registeredImage :
    ∃ found, code registeredImage.memory registeredGraph = .ok (some found) ∧
      Accepted registeredImage.memory registeredGraph found := by
  have hfit : ∀ segment ∈ registeredImage.segments, ∀ address,
      segment.contains address = true → Fits registeredImage.width address := by
    rw [registeredImage, List.forall_mem_singleton]
    exact fun address => fits_of_contains (by decide) (by decide)
  obtain ⟨hfinds, haccepted⟩ :=
    code_finds_registered load_registeredFile hfit (show 0 < registeredGraph.modules.size by decide)
  obtain ⟨found, hfound⟩ := hfinds ⟨_, registered_registeredImage⟩
  exact ⟨found, hfound, haccepted found hfound⟩

end Images

end TypeAtlas.Scan
