import TypeAtlas.Proofs.Outcome
import TypeAtlas.Registration.Scan

namespace TypeAtlas.Scan

variable {memory : Memory} {graph : TypeGraph}

/-- An address fits the width of pointers. -/
def Fits (width : PointerWidth) (address : Int) : Prop :=
  0 ≤ address ∧ address < 256 ^ width.bytes

/-- The addresses at which pointers to an address stand. -/
def pointersTo (memory : Memory) (address : Int) : List Int :=
  memory.findAligned (Bytes.ofNat address.toNat memory.width.bytes)

theorem findPointer_eq_ok_iff {address : Int} {found : List Int} :
    memory.findPointer address = .ok found ↔
      Fits memory.width address ∧ found = pointersTo memory address := by
  have hbound : ((Nat.pow 256 memory.width.bytes : Nat) : Int) = 256 ^ memory.width.bytes := by
    simp
  unfold Memory.findPointer Memory.pointerBytes Fits
  rw [hbound]
  split
  · next hneg =>
      simp only [Except.map, reduceCtorEq, false_iff, not_and]
      intro h
      omega
  · split
    · next hlarge =>
        simp only [Except.map, reduceCtorEq, false_iff, not_and]
        intro h
        omega
    · next hneg hlarge =>
        simp only [Except.map, Except.ok.injEq, pointersTo]
        constructor
        · rintro rfl
          exact ⟨⟨by omega, by omega⟩, rfl⟩
        · rintro ⟨-, rfl⟩
          rfl

section Lists

variable {α β : Type}

theorem flatMapM_eq_ok_iff {answer : α → Except Fault (List β)} {value : α → List β}
    {can : α → Prop} {items : List α} {found : List β}
    (hanswer : ∀ item ∈ items, ∀ part, answer item = .ok part ↔ can item ∧ part = value item) :
    items.flatMapM answer = .ok found ↔
      (∀ item ∈ items, can item) ∧ found = items.flatMap value := by
  induction items generalizing found with
  | nil =>
      simp only [List.flatMapM_nil, List.flatMap_nil, List.not_mem_nil, false_implies,
        implies_true, true_and]
      constructor
      · intro h
        exact (Except.ok.inj h).symm
      · rintro rfl
        rfl
  | cons item items ih =>
      have hrest : ∀ other ∈ items, ∀ part,
          answer other = .ok part ↔ can other ∧ part = value other :=
        fun other hother => hanswer other (List.mem_cons_of_mem _ hother)
      rw [List.flatMapM_cons]
      constructor
      · intro h
        obtain ⟨first, hfirst, h⟩ := bind_eq_ok h
        obtain ⟨rest, hrest', h⟩ := bind_eq_ok h
        obtain rfl := Except.ok.inj h
        obtain ⟨hcan, rfl⟩ := (hanswer item List.mem_cons_self first).mp hfirst
        obtain ⟨hcans, rfl⟩ := (ih hrest).mp hrest'
        exact ⟨List.forall_mem_cons.mpr ⟨hcan, hcans⟩, rfl⟩
      · rintro ⟨hcans, rfl⟩
        obtain ⟨hcan, hcans⟩ := List.forall_mem_cons.mp hcans
        have hfirst := (hanswer item List.mem_cons_self _).mpr ⟨hcan, rfl⟩
        have hrest' := (ih hrest).mpr ⟨hcans, rfl⟩
        rw [hfirst, hrest']
        rfl

theorem exists_of_flatMapM_eq_error {answer : α → Except Fault (List β)} {items : List α}
    {fault : Fault} (h : items.flatMapM answer = .error fault) :
    ∃ item ∈ items, answer item = .error fault := by
  induction items with
  | nil => cases h
  | cons item items ih =>
      rw [List.flatMapM_cons] at h
      rcases bind_eq_error h with hfirst | ⟨first, -, h⟩
      · exact ⟨item, List.mem_cons_self, hfirst⟩
      · rcases bind_eq_error h with hrest | ⟨rest, -, h⟩
        · obtain ⟨other, hother, hfault⟩ := ih hrest
          exact ⟨other, List.mem_cons_of_mem _ hother, hfault⟩
        · cases h

end Lists

/-- The addresses of the names of modules. -/
def texts (memory : Memory) (graph : TypeGraph) : List Int :=
  (moduleNames graph).flatMap fun name => memory.findBytes (terminated name)

/-- The starts of the arrays of modules that lead to the module at an address. -/
def arraysAt (memory : Memory) (graph : TypeGraph) (module : Int) : List Int :=
  (pointersTo memory module).map fun slot =>
    arrayStart memory graph.release (moduleNames graph) slot (graph.modules.size - 1)

/-- The starts of the arrays of modules that the text at an address leads to. -/
def arraysFrom (memory : Memory) (graph : TypeGraph) (text : Int) : List Int :=
  (pointersTo memory text).flatMap (arraysAt memory graph)

/-- The starts of the arrays of modules that the names of modules lead to. -/
def arrays (memory : Memory) (graph : TypeGraph) : List Int :=
  ((texts memory graph).flatMap (arraysFrom memory graph)).eraseDups

/-- The code registration that an array of modules belongs to. -/
def registrationOf? (memory : Memory) (graph : TypeGraph) (array : Int) : Option Int :=
  let slot : Nat :=
    Slots.distance graph.release.codeRegistrationSlots "code_gen_modules" memory.width
  ((pointersTo memory array).map (· - (slot : Int))).find? (countsModules memory graph)

/-- The address of a text, and those of what points to it, fit the width of pointers. -/
def TextFits (memory : Memory) (text : Int) : Prop :=
  Fits memory.width text ∧ ∀ module ∈ pointersTo memory text, Fits memory.width module

/-- The arrays up to the first one with a registration fit the width of pointers. -/
def ArraysFit (memory : Memory) (graph : TypeGraph) : List Int → Prop
  | [] => True
  | array :: arrays =>
      Fits memory.width array ∧
        (registrationOf? memory graph array = none → ArraysFit memory graph arrays)

/-- Every address that a scan for the code registration looks for fits the width of pointers. -/
structure CodeFits (memory : Memory) (graph : TypeGraph) : Prop where
  texts : ∀ text ∈ texts memory graph, TextFits memory text
  arrays : ArraysFit memory graph (arrays memory graph)

theorem arraysFrom_answers (text : Int) (found : List Int) :
    (do
      let structures ← memory.findPointer text
      structures.flatMapM fun module => do
        let slots ← memory.findPointer module
        return slots.map fun slot =>
          arrayStart memory graph.release (moduleNames graph) slot (graph.modules.size - 1)) =
        Except.ok found ↔ TextFits memory text ∧ found = arraysFrom memory graph text := by
  have hmodule : ∀ module ∈ pointersTo memory text, ∀ part : List Int,
      (do
        let slots ← memory.findPointer module
        return slots.map fun slot =>
          arrayStart memory graph.release (moduleNames graph) slot (graph.modules.size - 1)) =
          Except.ok part ↔ Fits memory.width module ∧ part = arraysAt memory graph module := by
    intro module _ part
    constructor
    · intro h
      obtain ⟨slots, hslots, h⟩ := bind_eq_ok h
      obtain ⟨hfits, rfl⟩ := findPointer_eq_ok_iff.mp hslots
      exact ⟨hfits, (Except.ok.inj h).symm⟩
    · rintro ⟨hfits, rfl⟩
      rw [findPointer_eq_ok_iff.mpr ⟨hfits, rfl⟩]
      rfl
  constructor
  · intro h
    obtain ⟨structures, hstructures, h⟩ := bind_eq_ok h
    obtain ⟨hfits, rfl⟩ := findPointer_eq_ok_iff.mp hstructures
    obtain ⟨hmodules, rfl⟩ := (flatMapM_eq_ok_iff hmodule).mp h
    exact ⟨⟨hfits, hmodules⟩, rfl⟩
  · rintro ⟨⟨hfits, hmodules⟩, rfl⟩
    rw [findPointer_eq_ok_iff.mpr ⟨hfits, rfl⟩]
    exact (flatMapM_eq_ok_iff hmodule).mpr ⟨hmodules, rfl⟩

theorem moduleArrays_eq_ok_iff {found : List Int} :
    moduleArrays memory graph = .ok found ↔
      (∀ text ∈ texts memory graph, TextFits memory text) ∧ found = arrays memory graph := by
  have hname : ∀ name ∈ moduleNames graph, ∀ part : List Int,
      arraysOf memory graph name = .ok part ↔
        (∀ text ∈ memory.findBytes (terminated name), TextFits memory text) ∧
          part = (memory.findBytes (terminated name)).flatMap (arraysFrom memory graph) := by
    intro name _ part
    exact flatMapM_eq_ok_iff fun text _ => arraysFrom_answers text
  have htexts : (∀ text ∈ texts memory graph, TextFits memory text) ↔
      ∀ name ∈ moduleNames graph, ∀ text ∈ memory.findBytes (terminated name),
        TextFits memory text := by
    simp only [texts, List.mem_flatMap]
    constructor
    · intro h name hname text htext
      exact h text ⟨name, hname, htext⟩
    · rintro h text ⟨name, hname, htext⟩
      exact h name hname text htext
  have harrays : arrays memory graph = ((moduleNames graph).flatMap fun name =>
      (memory.findBytes (terminated name)).flatMap (arraysFrom memory graph)).eraseDups := by
    rw [arrays, texts, List.flatMap_assoc]
  rw [htexts, harrays]
  unfold moduleArrays
  constructor
  · intro h
    cases hall : (moduleNames graph).flatMapM (arraysOf memory graph) with
    | error fault =>
        rw [hall] at h
        cases h
    | ok all =>
        rw [hall] at h
        obtain rfl := Except.ok.inj h
        obtain ⟨hfits, rfl⟩ := (flatMapM_eq_ok_iff hname).mp hall
        exact ⟨hfits, rfl⟩
  · rintro ⟨hfits, rfl⟩
    rw [(flatMapM_eq_ok_iff hname).mpr ⟨hfits, rfl⟩]
    rfl

theorem codeFrom_cons {array : Int} {items : List Int} (h : Fits memory.width array) :
    codeFrom memory graph (array :: items) =
      match registrationOf? memory graph array with
      | some address => .ok (some address)
      | none => codeFrom memory graph items := by
  rw [codeFrom, findPointer_eq_ok_iff.mpr ⟨h, rfl⟩]
  rfl

theorem codeFrom_isOk_iff (items : List Int) :
    (∃ found, codeFrom memory graph items = .ok found) ↔ ArraysFit memory graph items := by
  induction items with
  | nil => exact ⟨fun _ => trivial, fun _ => ⟨none, rfl⟩⟩
  | cons array items ih =>
      constructor
      · rintro ⟨found, h⟩
        have hfits : Fits memory.width array := by
          obtain ⟨locations, hlocations, -⟩ := bind_eq_ok h
          exact (findPointer_eq_ok_iff.mp hlocations).1
        refine ⟨hfits, fun hnone => ?_⟩
        rw [codeFrom_cons hfits, hnone] at h
        exact ih.mp ⟨found, h⟩
      · rintro ⟨hfits, hrest⟩
        rw [codeFrom_cons hfits]
        cases hfound : registrationOf? memory graph array with
        | some address => exact ⟨some address, rfl⟩
        | none => exact ih.mpr (hrest hfound)

theorem code_isOk_iff : (∃ found, code memory graph = .ok found) ↔ CodeFits memory graph := by
  constructor
  · rintro ⟨found, h⟩
    obtain ⟨items, hitems, h⟩ := bind_eq_ok h
    obtain ⟨htexts, rfl⟩ := moduleArrays_eq_ok_iff.mp hitems
    exact ⟨htexts, (codeFrom_isOk_iff _).mp ⟨found, h⟩⟩
  · rintro ⟨htexts, harrays⟩
    obtain ⟨found, h⟩ := (codeFrom_isOk_iff _).mpr harrays
    refine ⟨found, ?_⟩
    rw [code, moduleArrays_eq_ok_iff.mpr ⟨htexts, rfl⟩]
    exact h

section Faults

variable {fault : Fault}

theorem kind_of_findPointer {address : Int} (h : memory.findPointer address = .error fault) :
    fault.kind = .outOfRange := by
  unfold Memory.findPointer Memory.pointerBytes at h
  split at h
  · obtain rfl := Except.error.inj h
    rfl
  · split at h
    · obtain rfl := Except.error.inj h
      rfl
    · cases h

theorem kind_of_moduleArrays (h : moduleArrays memory graph = .error fault) :
    fault.kind = .outOfRange := by
  unfold moduleArrays at h
  cases hall : (moduleNames graph).flatMapM (arraysOf memory graph) with
  | ok all =>
      rw [hall] at h
      cases h
  | error found =>
      rw [hall] at h
      obtain rfl := Except.error.inj h
      obtain ⟨name, -, hname⟩ := exists_of_flatMapM_eq_error hall
      obtain ⟨text, -, htext⟩ := exists_of_flatMapM_eq_error hname
      rcases bind_eq_error htext with hpointer | ⟨structures, -, hstructures⟩
      · exact kind_of_findPointer hpointer
      · obtain ⟨module, -, hmodule⟩ := exists_of_flatMapM_eq_error hstructures
        rcases bind_eq_error hmodule with hpointer | ⟨slots, -, hslots⟩
        · exact kind_of_findPointer hpointer
        · cases hslots

theorem kind_of_codeFrom {items : List Int} (h : codeFrom memory graph items = .error fault) :
    fault.kind = .outOfRange := by
  induction items with
  | nil => cases h
  | cons array items ih =>
      rw [codeFrom] at h
      rcases bind_eq_error h with hpointer | ⟨locations, -, h⟩
      · exact kind_of_findPointer hpointer
      · split at h
        · cases h
        · exact ih h

theorem kind_of_code (h : code memory graph = .error fault) : fault.kind = .outOfRange := by
  rcases bind_eq_error h with harrays | ⟨items, -, h⟩
  · exact kind_of_moduleArrays harrays
  · exact kind_of_codeFrom h

end Faults

theorem metadata_isOk_of_fits (h : Fits memory.width graph.types.size) :
    ∃ found, metadata memory graph = .ok found := by
  unfold metadata
  split
  · exact ⟨none, rfl⟩
  · rw [findPointer_eq_ok_iff.mpr ⟨h, rfl⟩]
    exact ⟨_, rfl⟩

section Segments

/-- Pointers can hold every address that the file fills. -/
def SegmentsFit (memory : Memory) : Prop :=
  ∀ segment ∈ memory.space.byAddress,
    0 ≤ segment.virtualAddress ∧ segment.fileStop ≤ 256 ^ memory.width.bytes

theorem lt_of_mem_findIn {needle : List UInt8} (hneedle : needle ≠ []) {segment : Segment}
    {distance : Nat} (h : distance ∈ memory.findIn needle segment) :
    (distance : Int) < segment.fileSize := by
  unfold Memory.findIn at h
  obtain ⟨place, hplace, rfl⟩ := List.mem_map.mp h
  obtain ⟨hstart, hstop, -⟩ := Bytes.mem_occurrencesFrom.mp hplace
  have hlength : 0 < needle.length := List.length_pos_iff.mpr hneedle
  omega

theorem fits_of_mem_findBytes (hfit : SegmentsFit memory) {needle : List UInt8}
    (hneedle : needle ≠ []) {address : Int} (h : address ∈ memory.findBytes needle) :
    Fits memory.width address := by
  obtain ⟨segment, hsegment, haddress⟩ := List.mem_flatMap.mp h
  obtain ⟨distance, hdistance, rfl⟩ := List.mem_map.mp haddress
  have hlt := lt_of_mem_findIn hneedle hdistance
  obtain ⟨hpos, hstop⟩ := hfit segment (List.mem_of_mem_filter hsegment)
  unfold Segment.fileStop at hstop
  exact ⟨by omega, by omega⟩

theorem mem_findBytes_of_mem_pointersTo {target address : Int}
    (h : address ∈ pointersTo memory target) :
    address ∈ memory.findBytes (Bytes.ofNat target.toNat memory.width.bytes) := by
  obtain ⟨segment, hsegment, haddress⟩ := List.mem_flatMap.mp h
  obtain ⟨distance, hdistance, rfl⟩ := List.mem_map.mp haddress
  have hbacked : segment ∈ memory.space.byAddress.filter Segment.isFileBacked := by
    rw [List.mem_filter, Bool.and_eq_true] at hsegment
    exact List.mem_filter.mpr ⟨hsegment.1, hsegment.2.1⟩
  exact List.mem_flatMap.mpr
    ⟨segment, hbacked, List.mem_map.mpr ⟨distance, List.mem_of_mem_filter hdistance, rfl⟩⟩

theorem ofNat_ne_nil (value : Nat) (width : PointerWidth) : Bytes.ofNat value width.bytes ≠ [] := by
  rw [← List.length_pos_iff, Bytes.length_ofNat]
  exact width.bytes_pos

theorem terminated_ne_nil (name : String) : terminated name ≠ [] :=
  List.concat_ne_nil _ _

theorem fits_of_mem_pointersTo (hfit : SegmentsFit memory) {target address : Int}
    (h : address ∈ pointersTo memory target) : Fits memory.width address := by
  have hneedle : Bytes.ofNat target.toNat memory.width.bytes ≠ [] := by
    rw [← List.length_pos_iff, Bytes.length_ofNat]
    exact memory.width.bytes_pos
  exact fits_of_mem_findBytes hfit hneedle (mem_findBytes_of_mem_pointersTo h)

theorem nonneg_of_readPointer (hfit : SegmentsFit memory) {address : Int} {what : String}
    {pointer : Nat} (h : memory.readPointer address what = .ok pointer) : 0 ≤ address := by
  unfold Memory.readPointer Memory.readBytes at h
  cases hsegment : memory.segmentFor? address memory.width.bytes with
  | none =>
      rw [hsegment] at h
      cases h
  | some segment =>
      have hat := (Option.filter_eq_some_iff.mp hsegment).1
      obtain ⟨hpos, -⟩ := hfit segment (AddressSpace.mem_of_segmentAt? hat)
      have hcontains := Segment.contains_iff.mp (AddressSpace.contains_of_segmentAt? hat)
      omega

theorem fits_arrayStart (hfit : SegmentsFit memory) {release : Release} {names : List String}
    {slot : Int} (hslot : Fits memory.width slot) (count : Nat) :
    Fits memory.width (arrayStart memory release names slot count) := by
  -- The walk moves only to slots that have been read, and those lie in a segment.
  induction count generalizing slot with
  | zero => exact hslot
  | succ count ih =>
      simp only [arrayStart]
      split
      · next module hmodule =>
          split
          · have hpos := nonneg_of_readPointer hfit hmodule
            obtain ⟨-, hlt⟩ := hslot
            exact ih ⟨hpos, by omega⟩
          · exact hslot
      · exact hslot

theorem arraysFit_of_forall {items : List Int} (h : ∀ array ∈ items, Fits memory.width array) :
    ArraysFit memory graph items := by
  induction items with
  | nil => trivial
  | cons array items ih =>
      obtain ⟨hfirst, hrest⟩ := List.forall_mem_cons.mp h
      exact ⟨hfirst, fun _ => ih hrest⟩

/-- A scan looks only for addresses in the segments. -/
theorem codeFits_of_segmentsFit (hfit : SegmentsFit memory) : CodeFits memory graph := by
  refine ⟨?_, arraysFit_of_forall ?_⟩
  · intro text htext
    obtain ⟨name, -, htext⟩ := List.mem_flatMap.mp htext
    exact ⟨fits_of_mem_findBytes hfit (terminated_ne_nil name) htext,
      fun module hmodule => fits_of_mem_pointersTo hfit hmodule⟩
  · intro array harray
    rw [arrays, List.mem_eraseDups] at harray
    obtain ⟨text, -, harray⟩ := List.mem_flatMap.mp harray
    obtain ⟨module, -, harray⟩ := List.mem_flatMap.mp harray
    obtain ⟨slot, hslot, rfl⟩ := List.mem_map.mp harray
    exact fits_arrayStart hfit (fits_of_mem_pointersTo hfit hslot) _

end Segments

end TypeAtlas.Scan
