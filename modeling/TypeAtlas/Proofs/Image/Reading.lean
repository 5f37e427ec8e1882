import TypeAtlas.Image.Memory
import TypeAtlas.Proofs.Bytes.Places
import TypeAtlas.Proofs.Image.Placement
import TypeAtlas.Proofs.Image.Translation
import TypeAtlas.Proofs.Text.Utf8

namespace TypeAtlas.Memory

open Segment

variable {parsers : Parsers} {data : ByteArray} {dumpBase : Option Int} {image : Image}
  {memory : Memory} {segment : Segment} {address size : Int} {what : String} {needle : List UInt8}
  {bytes : ByteArray}

/-- The segments of a memory lie in the file and are apart from each other, in ascending order. -/
structure Laid (memory : Memory) : Prop where
  placed : ∀ segment ∈ memory.space.byAddress, segment.Placed memory.data
  apart : memory.space.byAddress.Pairwise Precedes

section Segments

theorem byAddress_of_apart {segments : List Segment} (hplaced : ∀ s ∈ segments, s.Placed data)
    (hapart : segments.Pairwise Precedes) :
    (AddressSpace.ofSegments segments).byAddress = segments := by
  refine List.mergeSort_of_pairwise (hapart.imp_of_mem fun hsegment _ hprecedes => ?_)
  rw [decide_eq_true_eq]
  exact (hprecedes.apart (hplaced _ hsegment).virtualSize_pos).1.le

theorem laid_of_declaration {file : ByteArray} {container origin : Container}
    {declared : Declaration}
    (hdeclared : (origin.declaration parsers file).outcome.1 = .ok declared)
    (h : Image.ofDeclaration data container declared dumpBase = .ok image) :
    image.memory.Laid ∧ image.memory.space.byAddress = Placement.segments declared dumpBase := by
  obtain ⟨hplaced, hapart⟩ := Image.placed_of_declaration hdeclared h
  obtain ⟨-, rfl⟩ := Image.ofDeclaration_eq_ok_iff.mp h
  have hsegments := byAddress_of_apart hplaced hapart
  exact ⟨⟨hsegments.symm ▸ hplaced, hsegments.symm ▸ hapart⟩, hsegments⟩

/-- The segments of an image that has been loaded are laid out. -/
theorem laid_of_load (h : (Image.load parsers data dumpBase).outcome.1 = .ok image) :
    image.memory.Laid := by
  obtain ⟨container, declared, -, hdeclared, hplaced⟩ := Image.load_eq_ok_iff.mp h
  exact (laid_of_declaration hdeclared hplaced).1

theorem Laid.disjoint (h : memory.Laid) :
    memory.space.byAddress.Pairwise fun first later => Disjoint first.addresses later.addresses :=
  h.apart.imp fun hprecedes => Set.Ico_disjoint_Ico.mpr
    ((min_le_left _ _).trans (hprecedes.trans (le_max_right _ _)))

theorem segmentAt?_eq_some_iff (h : memory.Laid) :
    memory.space.segmentAt? address = some segment ↔
      segment ∈ memory.space.byAddress ∧ segment.contains address = true := by
  have hpos : ∀ s ∈ memory.space.byAddress, 0 < s.virtualSize := fun s hs =>
    (h.placed s hs).virtualSize_pos
  have hascending : AddressSpace.Ascending memory.space.byAddress :=
    h.apart.imp_of_mem fun hsegment _ hprecedes => (hprecedes.apart (hpos _ hsegment)).1.le
  exact AddressSpace.segmentAt?_eq_some_iff hascending hpos h.disjoint

/-- A segment holds some bytes of the file at an address. -/
structure Backs (memory : Memory) (segment : Segment) (address size : Int) : Prop where
  mem : segment ∈ memory.space.byAddress
  start_le : segment.virtualAddress ≤ address
  lt_stop : address < segment.fileStop
  size_nonneg : 0 ≤ size
  stop_le : address + size ≤ segment.fileStop

theorem Backs.contains (h : memory.Laid) (hbacks : memory.Backs segment address size) :
    segment.contains address = true := by
  have hsize := (h.placed segment hbacks.mem).fileSize_le
  have hstop := hbacks.lt_stop
  rw [fileStop] at hstop
  rw [contains_iff, stop]
  exact ⟨hbacks.start_le, by omega⟩

theorem Backs.isFileBacked (hbacks : memory.Backs segment address size) :
    segment.isFileBacked = true := by
  have hstart := hbacks.start_le
  have hstop := hbacks.lt_stop
  rw [fileStop] at hstop
  rw [Segment.isFileBacked, bne_iff_ne]
  omega

theorem segmentFor?_eq_some_iff (h : memory.Laid) :
    memory.segmentFor? address size = some segment ↔ memory.Backs segment address size := by
  rw [segmentFor?, Option.filter_eq_some_iff, segmentAt?_eq_some_iff h]
  simp only [backs, Bool.and_eq_true, decide_eq_true_eq]
  constructor
  · rintro ⟨⟨hmem, hcontains⟩, ⟨⟨-, hstop⟩, hsize⟩, hend⟩
    exact ⟨hmem, (contains_iff.mp hcontains).1, hstop, hsize, hend⟩
  · intro hbacks
    have hcontains := hbacks.contains h
    exact ⟨⟨hbacks.mem, hcontains⟩, ⟨⟨hcontains, hbacks.lt_stop⟩, hbacks.size_nonneg⟩,
      hbacks.stop_le⟩

end Segments

section Reading

theorem Backs.place_le (h : memory.Laid) (hbacks : memory.Backs segment address size) :
    0 ≤ segment.fileOffset ∧ placeIn segment address + size.toNat ≤ memory.data.size := by
  obtain ⟨hmem, hstart, hlt, hsize, hstop⟩ := hbacks
  rw [fileStop] at hlt hstop
  obtain ⟨hoffset, hend⟩ := (h.placed segment hmem).inFile (by omega)
  rw [placeIn]
  omega

theorem readBytes_eq_ok_iff (h : memory.Laid) : memory.readBytes address size what = .ok bytes ↔
    ∃ segment, memory.Backs segment address size ∧
      Bytes.slice memory.data (placeIn segment address) size.toNat = bytes := by
  simp only [← segmentFor?_eq_some_iff h, readBytes]
  cases memory.segmentFor? address size with
  | none => simp
  | some segment => simp

theorem size_of_readBytes (h : memory.Laid)
    (hread : memory.readBytes address size what = .ok bytes) : bytes.size = size.toNat := by
  obtain ⟨segment, hbacks, rfl⟩ := (readBytes_eq_ok_iff h).mp hread
  have hplace := (hbacks.place_le h).2
  rw [Bytes.slice, ByteArray.size_extract]
  omega

theorem slice_zero_size (bytes : ByteArray) : Bytes.slice bytes 0 bytes.size = bytes := by
  rw [Bytes.slice, Nat.zero_add, ByteArray.extract_zero_size]

theorem readPointer_eq_ok_iff (h : memory.Laid) {value : Nat} :
    memory.readPointer address what = .ok value ↔ value < 256 ^ memory.width.bytes ∧
      memory.readBytes address memory.width.bytes what =
        .ok (Bytes.ofNat value memory.width.bytes).toByteArray := by
  rw [readPointer]
  cases hread : memory.readBytes address memory.width.bytes what with
  | error fault => simp [Except.map]
  | ok bytes =>
      have hsize : bytes.size = memory.width.bytes := size_of_readBytes h hread
      simp only [Except.map, Except.ok.injEq]
      constructor
      · rintro rfl
        refine ⟨Bytes.littleEndian_lt _ _ _, ?_⟩
        have hplace : 0 + memory.width.bytes ≤ bytes.size := by omega
        have hbytes := Bytes.matchesAt_iff_slice_eq.mp (Bytes.matchesAt_littleEndian hplace)
        have hwhole : Bytes.slice bytes 0 memory.width.bytes = bytes := by
          rw [← hsize, slice_zero_size]
        rwa [Bytes.length_ofNat, hwhole] at hbytes
      · rintro ⟨hvalue, rfl⟩
        exact Bytes.littleEndian_of_matchesAt hvalue (Bytes.matchesAt_toByteArray _)

theorem segmentFor?_of_le (h : memory.Laid) {part : Int}
    (hbacks : memory.Backs segment address size) (hpart : 0 ≤ part) (hle : part ≤ size) :
    memory.segmentFor? address part = some segment :=
  (segmentFor?_eq_some_iff h).mpr
    { hbacks with size_nonneg := hpart, stop_le := (by linarith [hbacks.stop_le]) }

theorem readText_eq_ok_iff (h : memory.Laid) {label : String} {text : String} :
    memory.readText address label = .ok (some text) ↔
      ∃ bytes : ByteArray, Text.decode bytes.toList = text ∧ bytes.size < maxTextSize ∧
        0 ∉ bytes.toList ∧ memory.readBytes address (bytes.size + 1 : Nat) what =
          .ok (bytes.toList ++ [0]).toByteArray := by
  constructor
  · intro hread
    unfold readText at hread
    split at hread
    · cases hread
    · next segment hsegment =>
        have hbacks := (segmentFor?_eq_some_iff h).mp hsegment
        obtain ⟨bytes, hbytes, htext⟩ := Option.map_eq_some_iff.mp (Except.ok.inj hread)
        obtain ⟨hsize, hzero, hmatch⟩ := Bytes.cString?_eq_some_iff.mp hbytes
        refine ⟨bytes, htext, by omega, hzero, (readBytes_eq_ok_iff h).mpr ⟨segment, ?_, ?_⟩⟩
        · exact { hbacks with size_nonneg := by omega, stop_le := (by omega) }
        · rw [Int.toNat_natCast, ← Bytes.length_toList_concat bytes 0]
          exact Bytes.matchesAt_iff_slice_eq.mp hmatch
  · rintro ⟨bytes, rfl, hshort, hzero, hread⟩
    obtain ⟨segment, hbacks, hslice⟩ := (readBytes_eq_ok_iff h).mp hread
    have hstop := hbacks.stop_le
    rw [Int.toNat_natCast, ← Bytes.length_toList_concat bytes 0, ← Bytes.matchesAt_iff_slice_eq]
      at hslice
    have htext : Bytes.cString? memory.data (placeIn segment address)
        (min maxTextSize (segment.fileStop - address).toNat) = some bytes :=
      Bytes.cString?_eq_some_iff.mpr ⟨by omega, hzero, hslice⟩
    unfold readText
    rw [segmentFor?_of_le h hbacks le_rfl hbacks.size_nonneg]
    dsimp only
    rw [htext]
    rfl

end Reading

section Searching

/-- An address lies in a segment that is not executed, at a multiple of the width of pointers from
its start. -/
def InData (memory : Memory) (address : Int) : Prop :=
  ∃ segment ∈ memory.space.byAddress, segment.contains address = true ∧
    segment.isExecutable = false ∧
      (memory.width.bytes : Int) ∣ address - segment.virtualAddress

theorem mem_findIn_iff (hplaced : segment.Placed memory.data) (hneedle : needle ≠ [])
    {distance : Nat} : distance ∈ memory.findIn needle segment ↔
      (distance + needle.length : Int) ≤ segment.fileSize ∧
        Bytes.slice memory.data (placeIn segment (segment.virtualAddress + distance))
          needle.length = needle.toByteArray := by
  have hlength : 0 < needle.length := List.length_pos_iff.mpr hneedle
  have hsize := hplaced.fileSize_nonneg
  rw [← Bytes.matchesAt_iff_slice_eq, findIn, placeIn, Bytes.occurrences]
  simp only [List.mem_map, Bytes.mem_occurrencesFrom]
  constructor
  · rintro ⟨place, ⟨hstart, hstop, hmatch⟩, rfl⟩
    obtain ⟨hoffset, -⟩ := hplaced.inFile (by omega)
    have hback : (segment.fileOffset + (segment.virtualAddress +
        (place - segment.fileOffset.toNat : Nat) - segment.virtualAddress)).toNat = place := by
      omega
    exact ⟨by omega, by rwa [hback]⟩
  · rintro ⟨hstop, hmatch⟩
    obtain ⟨hoffset, -⟩ := hplaced.inFile (by omega)
    have hplace : (segment.fileOffset + (segment.virtualAddress + distance -
        segment.virtualAddress)).toNat = segment.fileOffset.toNat + distance := by
      omega
    rw [hplace] at hmatch
    exact ⟨segment.fileOffset.toNat + distance, ⟨by omega, by omega, hmatch⟩, by omega⟩

theorem exists_distance_iff (h : memory.Laid) (hmem : segment ∈ memory.space.byAddress)
    (hneedle : needle ≠ []) :
    (∃ distance ∈ memory.findIn needle segment,
      segment.virtualAddress + (distance : Int) = address) ↔
      memory.Backs segment address needle.length ∧
        Bytes.slice memory.data (placeIn segment address) needle.length = needle.toByteArray := by
  have hlength : 0 < needle.length := List.length_pos_iff.mpr hneedle
  simp only [mem_findIn_iff (h.placed segment hmem) hneedle]
  constructor
  · rintro ⟨distance, ⟨hstop, hslice⟩, rfl⟩
    refine ⟨⟨hmem, by omega, ?_, by omega, ?_⟩, hslice⟩ <;> rw [fileStop] <;> omega
  · rintro ⟨⟨-, hstart, hlt, -, hstop⟩, hslice⟩
    have hdistance : segment.virtualAddress + ((address - segment.virtualAddress).toNat : Int) =
        address := by omega
    rw [fileStop] at hstop
    refine ⟨_, ⟨by omega, ?_⟩, hdistance⟩
    rwa [hdistance]

theorem mem_findBytes_iff (h : memory.Laid) (hneedle : needle ≠ []) (what : String) :
    address ∈ memory.findBytes needle ↔
      memory.readBytes address needle.length what = .ok needle.toByteArray := by
  rw [readBytes_eq_ok_iff h]
  simp only [findBytes, List.mem_flatMap, List.mem_filter, List.mem_map, Int.toNat_natCast]
  constructor
  · rintro ⟨segment, ⟨hmem, -⟩, hdistance⟩
    exact ⟨segment, (exists_distance_iff h hmem hneedle).mp hdistance⟩
  · rintro ⟨segment, hbacks, hslice⟩
    exact ⟨segment, ⟨hbacks.mem, hbacks.isFileBacked⟩,
      (exists_distance_iff h hbacks.mem hneedle).mpr ⟨hbacks, hslice⟩⟩

/-- Aligned bytes are found exactly at the aligned addresses of data from which they are read. -/
theorem mem_findAligned_iff (h : memory.Laid) (hneedle : needle ≠ []) (what : String) :
    address ∈ memory.findAligned needle ↔
      memory.readBytes address needle.length what = .ok needle.toByteArray ∧
        memory.InData address := by
  rw [readBytes_eq_ok_iff h]
  simp only [findAligned, List.mem_flatMap, List.mem_filter, List.mem_map, Int.toNat_natCast,
    Bool.and_eq_true, Bool.not_eq_true', beq_iff_eq]
  constructor
  · rintro ⟨segment, ⟨hmem, -, hexecutable⟩, distance, ⟨hdistance, haligned⟩, rfl⟩
    have hfound := (exists_distance_iff h hmem hneedle).mp ⟨distance, hdistance, rfl⟩
    refine ⟨⟨segment, hfound⟩, segment, hmem, hfound.1.contains h, hexecutable, ?_⟩
    rw [add_sub_cancel_left]
    exact Int.natCast_dvd_natCast.mpr (Nat.dvd_of_mod_eq_zero haligned)
  · rintro ⟨⟨segment, hbacks, hslice⟩, other, hmem, hcontains, hexecutable, haligned⟩
    -- The bytes are read from one segment and aligned in another; both contain the address.
    have hsame : segment = other := by
      have hother := (segmentAt?_eq_some_iff h).mpr ⟨hmem, hcontains⟩
      rw [(segmentAt?_eq_some_iff h).mpr ⟨hbacks.mem, hbacks.contains h⟩] at hother
      exact Option.some.inj hother
    obtain rfl := hsame
    obtain ⟨distance, hdistance, rfl⟩ :=
      (exists_distance_iff h hmem hneedle).mpr ⟨hbacks, hslice⟩
    rw [add_sub_cancel_left, Int.natCast_dvd_natCast] at haligned
    refine ⟨segment, ⟨hmem, hbacks.isFileBacked, hexecutable⟩, distance,
      ⟨hdistance, Nat.mod_eq_zero_of_dvd haligned⟩, rfl⟩

theorem pairwise_occurrencesFrom {place count : Nat} :
    (Bytes.occurrencesFrom data needle place count).Pairwise (· < ·) := by
  induction count generalizing place with
  | zero => exact .nil
  | succ count ih =>
      rw [Bytes.occurrencesFrom]
      split
      · refine List.pairwise_cons.mpr ⟨fun later hlater => ?_, ih⟩
        exact (Bytes.mem_occurrencesFrom.mp hlater).1
      · exact ih

theorem pairwise_findIn : (memory.findIn needle segment).Pairwise (· < ·) := by
  rw [findIn, List.pairwise_map]
  refine pairwise_occurrencesFrom.imp_of_mem fun hfirst hlater hlt => ?_
  have hfirst := (Bytes.mem_occurrencesFrom.mp hfirst).1
  have hlater := (Bytes.mem_occurrencesFrom.mp hlater).1
  omega

theorem pairwise_found (h : memory.Laid) (hneedle : needle ≠ []) {searched : List Segment}
    {found : Segment → List Nat} (hsearched : searched.Sublist memory.space.byAddress)
    (hfound : ∀ segment, (found segment).Sublist (memory.findIn needle segment)) :
    (searched.flatMap fun segment => (found segment).map fun distance : Nat =>
      segment.virtualAddress + (distance : Int)).Pairwise (· < ·) := by
  rw [List.pairwise_flatMap]
  constructor
  · intro segment _
    rw [List.pairwise_map]
    exact (pairwise_findIn.sublist (hfound segment)).imp fun hlt => by omega
  · refine (h.apart.sublist hsearched).imp_of_mem fun {segment _} hsegment _ hprecedes => ?_
    intro first hfirst second hsecond
    obtain ⟨distance, hdistance, rfl⟩ := List.mem_map.mp hfirst
    obtain ⟨later, -, rfl⟩ := List.mem_map.mp hsecond
    have hbacks := ((exists_distance_iff h (hsearched.subset hsegment) hneedle).mp
      ⟨distance, (hfound segment).subset hdistance, rfl⟩).1
    have hstop := (contains_iff.mp (hbacks.contains h)).2
    rw [Precedes] at hprecedes
    omega

theorem pairwise_findBytes (h : memory.Laid) (hneedle : needle ≠ []) :
    (memory.findBytes needle).Pairwise (· < ·) :=
  pairwise_found h hneedle List.filter_sublist fun _ => .refl _

theorem pairwise_findAligned (h : memory.Laid) (hneedle : needle ≠ []) :
    (memory.findAligned needle).Pairwise (· < ·) :=
  pairwise_found h hneedle List.filter_sublist fun _ => List.filter_sublist

end Searching

end TypeAtlas.Memory
