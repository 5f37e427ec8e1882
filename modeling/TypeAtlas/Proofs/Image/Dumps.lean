import TypeAtlas.Proofs.Image.Reading

namespace TypeAtlas

namespace Placement

variable {declared : Declaration} {segment : Segment} {base dumpBase address : Int}

theorem segments_some :
    segments declared (some dumpBase) =
      (segments declared none).map (rebase declared.base dumpBase) :=
  rfl

theorem mem_of_mem_segments (h : segment ∈ segments declared none) :
    segment ∈ declared.segments :=
  List.mem_of_mem_filter h

theorem contains_rebase : (rebase base dumpBase segment).contains (address - base + dumpBase) =
    segment.contains address := by
  rw [Bool.eq_iff_iff, Segment.contains_iff, Segment.contains_iff, Segment.stop, Segment.stop]
  unfold rebase
  dsimp only
  omega

theorem fileStop_rebase :
    (rebase base dumpBase segment).fileStop = segment.stop - base + dumpBase := by
  unfold rebase Segment.fileStop Segment.stop
  dsimp only
  omega

end Placement

namespace Memory

open Placement

/-- A dump holds the segments of a memory moved to its own address, and the bytes of the file
where they stand once they are mapped. -/
structure Dumped (memory dump : Memory) (base dumpBase : Int) : Prop where
  laid : memory.Laid
  laid_dump : dump.Laid
  byAddress_eq : dump.space.byAddress = memory.space.byAddress.map (rebase base dumpBase)
  byteAt_eq : ∀ segment ∈ memory.space.byAddress, ∀ k : Nat, (k : Int) < segment.fileSize →
    Bytes.byteAt dump.data (segment.virtualAddress - base + k).toNat =
      Bytes.byteAt memory.data (segment.fileOffset + k).toNat

variable {memory dump : Memory} {base dumpBase address size : Int} {segment : Segment}
  {what : String} {bytes : ByteArray}

section Segments

theorem Dumped.mem_rebase (h : memory.Dumped dump base dumpBase)
    (hsegment : segment ∈ memory.space.byAddress) :
    rebase base dumpBase segment ∈ dump.space.byAddress :=
  h.byAddress_eq ▸ List.mem_map_of_mem hsegment

theorem Dumped.segmentAt?_eq (h : memory.Dumped dump base dumpBase) (address : Int) :
    dump.space.segmentAt? (address - base + dumpBase) =
      (memory.space.segmentAt? address).map (rebase base dumpBase) := by
  refine Option.ext fun segment => ?_
  rw [segmentAt?_eq_some_iff h.laid_dump, h.byAddress_eq, List.mem_map, Option.map_eq_some_iff]
  constructor
  · rintro ⟨⟨source, hsource, rfl⟩, hcontains⟩
    exact ⟨source, (segmentAt?_eq_some_iff h.laid).mpr ⟨hsource, contains_rebase ▸ hcontains⟩, rfl⟩
  · rintro ⟨source, hsource, rfl⟩
    obtain ⟨hsource, hcontains⟩ := (segmentAt?_eq_some_iff h.laid).mp hsource
    exact ⟨⟨source, hsource, rfl⟩, contains_rebase.trans hcontains⟩

theorem Dumped.isExecutable_eq (h : memory.Dumped dump base dumpBase) (address : Int) :
    dump.space.isExecutable (address - base + dumpBase) = memory.space.isExecutable address := by
  rw [AddressSpace.isExecutable, h.segmentAt?_eq, Option.any_map]
  rfl

end Segments

section Reading

theorem Dumped.backs (h : memory.Dumped dump base dumpBase)
    (hbacks : memory.Backs segment address size) :
    dump.Backs (rebase base dumpBase segment) (address - base + dumpBase) size := by
  have hle := (h.laid.placed segment hbacks.mem).fileSize_le
  have hfile : segment.fileStop ≤ segment.stop := Int.add_le_add_left hle _
  have hstart : (rebase base dumpBase segment).virtualAddress =
      segment.virtualAddress - base + dumpBase := Int.add_comm _ _
  obtain ⟨hmem, hstart_le, hlt, hsize, hstop⟩ := hbacks
  refine ⟨h.mem_rebase hmem, ?_, ?_, hsize, ?_⟩
  · rw [hstart]
    omega
  · rw [fileStop_rebase]
    omega
  · rw [fileStop_rebase]
    omega

theorem placeIn_rebase : placeIn (rebase base dumpBase segment) (address - base + dumpBase) =
    (address - base).toNat := by
  unfold placeIn rebase
  dsimp only
  congr 1
  omega

theorem Dumped.slice_eq (h : memory.Dumped dump base dumpBase)
    (hbacks : memory.Backs segment address size) :
    Bytes.slice dump.data (address - base).toNat size.toNat =
      Bytes.slice memory.data (placeIn segment address) size.toNat := by
  obtain ⟨hoffset, hplace⟩ := hbacks.place_le h.laid
  have hplace_dump := ((h.backs hbacks).place_le h.laid_dump).2
  rw [placeIn_rebase] at hplace_dump
  have hmapped : 0 ≤ segment.virtualAddress - base :=
    ((h.laid_dump.placed _ (h.mem_rebase hbacks.mem)).inFile
      (h.laid.placed segment hbacks.mem).virtualSize_pos).1
  have hstart := hbacks.start_le
  have hstop := hbacks.stop_le
  rw [Segment.fileStop] at hstop
  refine Bytes.slice_eq_of_byteAt hplace_dump hplace fun i hi => ?_
  -- The byte is the one at this distance from the start of the segment.
  have hbyte := h.byteAt_eq segment hbacks.mem (address - segment.virtualAddress + i).toNat
    (by omega)
  have hat_dump : (segment.virtualAddress - base +
      ((address - segment.virtualAddress + i).toNat : Int)).toNat = (address - base).toNat + i := by
    omega
  have hat : (segment.fileOffset + ((address - segment.virtualAddress + i).toNat : Int)).toNat =
      placeIn segment address + i := by
    rw [placeIn]
    omega
  rwa [hat_dump, hat] at hbyte

/-- What is read from the file is read from the dump. -/
theorem Dumped.readBytes_eq_ok (h : memory.Dumped dump base dumpBase)
    (hread : memory.readBytes address size what = .ok bytes) :
    dump.readBytes (address - base + dumpBase) size what = .ok bytes := by
  obtain ⟨segment, hbacks, rfl⟩ := (readBytes_eq_ok_iff h.laid).mp hread
  refine (readBytes_eq_ok_iff h.laid_dump).mpr ⟨_, h.backs hbacks, ?_⟩
  rw [placeIn_rebase]
  exact h.slice_eq hbacks

end Reading

end Memory

namespace Image

variable {parsers : Parsers} {file data dumped : ByteArray} {origin container : Container}
  {declared : Declaration} {dumpBase : Int} {image dump : Image}

theorem dumped_of_declaration
    (hdeclared : (origin.declaration parsers file).outcome.1 = .ok declared)
    (himage : ofDeclaration data container declared none = .ok image)
    (hdump : ofDeclaration dumped container declared (some dumpBase) = .ok dump)
    (hbytes : ∀ segment ∈ declared.segments, ∀ k : Nat, (k : Int) < segment.fileSize →
      Bytes.byteAt dumped (segment.virtualAddress - declared.base + k).toNat =
        Bytes.byteAt data (segment.fileOffset + k).toNat) :
    image.memory.Dumped dump.memory declared.base dumpBase := by
  obtain ⟨hlaid, hsegments⟩ := Memory.laid_of_declaration hdeclared himage
  obtain ⟨hlaid_dump, hsegments_dump⟩ := Memory.laid_of_declaration hdeclared hdump
  refine ⟨hlaid, hlaid_dump, ?_, ?_⟩
  · rw [hsegments, hsegments_dump, Placement.segments_some]
  · obtain ⟨-, rfl⟩ := ofDeclaration_eq_ok_iff.mp himage
    obtain ⟨-, rfl⟩ := ofDeclaration_eq_ok_iff.mp hdump
    intro segment hsegment
    rw [hsegments] at hsegment
    exact hbytes segment (Placement.mem_of_mem_segments hsegment)

/-- A memory dump reads like the file: if the bytes of each segment stand in the dump where they
are mapped, then what is read at an address of the image is read at its counterpart in the dump,
and both addresses belong to the same segment. -/
theorem dump_reads_like_file
    (hdeclared : (origin.declaration parsers file).outcome.1 = .ok declared)
    (himage : ofDeclaration data container declared none = .ok image)
    (hdump : ofDeclaration dumped container declared (some dumpBase) = .ok dump)
    (hbytes : ∀ segment ∈ declared.segments, ∀ k : Nat, (k : Int) < segment.fileSize →
      Bytes.byteAt dumped (segment.virtualAddress - declared.base + k).toNat =
        Bytes.byteAt data (segment.fileOffset + k).toNat) :
    (∀ address size what bytes, image.memory.readBytes address size what = .ok bytes →
        dump.memory.readBytes (address - image.base + dump.base) size what = .ok bytes) ∧
      (∀ address, dump.memory.space.segmentAt? (address - image.base + dump.base) =
        (image.memory.space.segmentAt? address).map (Placement.rebase image.base dump.base)) ∧
      ∀ address, dump.memory.space.isExecutable (address - image.base + dump.base) =
        image.memory.space.isExecutable address := by
  have h := dumped_of_declaration hdeclared himage hdump hbytes
  have hbase : image.base = declared.base := by
    obtain ⟨-, rfl⟩ := ofDeclaration_eq_ok_iff.mp himage
    rfl
  have hbase_dump : dump.base = dumpBase := by
    obtain ⟨-, rfl⟩ := ofDeclaration_eq_ok_iff.mp hdump
    rfl
  rw [hbase, hbase_dump]
  exact ⟨fun _ _ _ _ hread => h.readBytes_eq_ok hread, h.segmentAt?_eq, h.isExecutable_eq⟩

/-- The headers of a file for a 32-bit machine with two segments. The second one stands four bytes
further on in memory than in the file, which fills half of it. -/
def gappedHeaders : List UInt8 :=
  [0x7F, 0x45, 0x4C, 0x46, 1, 1, 1, 0, 0, 0, 0, 0, 0, 0, 0, 0, 2, 0, 3, 0, 1, 0, 0, 0,
    0, 0, 0, 0, 52, 0, 0, 0, 0, 0, 0, 0, 0, 0, 0, 0, 52, 0, 32, 0, 2, 0, 40, 0, 0, 0, 0, 0,
    1, 0, 0, 0, 0, 0, 0, 0, 0, 16, 0, 0, 0, 0, 0, 0, 116, 0, 0, 0, 116, 0, 0, 0, 5, 0, 0, 0,
    4, 0, 0, 0, 1, 0, 0, 0, 116, 0, 0, 0, 120, 16, 0, 0, 0, 0, 0, 0, 4, 0, 0, 0, 8, 0, 0, 0,
    6, 0, 0, 0, 4, 0, 0, 0]

def gappedFile : ByteArray :=
  (gappedHeaders ++ [0xDE, 0xAD, 0xBE, 0xEF]).toByteArray

def gappedDump : ByteArray :=
  (gappedHeaders ++ [0, 0, 0, 0, 0xDE, 0xAD, 0xBE, 0xEF, 0, 0, 0, 0]).toByteArray

def gappedDeclaration : Declaration where
  machine := .x86
  width := .bits32
  base := 0x1000
  segments :=
    [⟨"LOAD0", 0, 116, 0x1000, 116, ⟨true, false, true⟩⟩,
      ⟨"LOAD1", 116, 4, 0x1078, 8, ⟨true, true, false⟩⟩]

set_option maxRecDepth 4000 in
theorem dump_reads_like_file_gapped :
    ∃ image dump, ofDeclaration gappedFile .elf gappedDeclaration none = .ok image ∧
      ofDeclaration gappedDump .elf gappedDeclaration (some 0x70000000) = .ok dump ∧
        image.memory.readBytes 0x1079 2 "word" = .ok [0xAD, 0xBE].toByteArray ∧
          dump.memory.readBytes 0x70000079 2 "word" = .ok [0xAD, 0xBE].toByteArray := by
  have hdeclared : (Container.elf.declaration formatParsers gappedFile).outcome.1 =
      .ok gappedDeclaration := by
    cbv
  have himage : ofDeclaration gappedFile .elf gappedDeclaration none = .ok _ :=
    ofDeclaration_eq_ok_iff.mpr ⟨by cbv, rfl⟩
  have hdump : ofDeclaration gappedDump .elf gappedDeclaration (some 0x70000000) = .ok _ :=
    ofDeclaration_eq_ok_iff.mpr ⟨by cbv, rfl⟩
  have hfirst : ∀ k < 116, Bytes.byteAt gappedDump k = Bytes.byteAt gappedFile k := by
    decide +kernel
  have hsecond : ∀ k < 4,
      Bytes.byteAt gappedDump (120 + k) = Bytes.byteAt gappedFile (116 + k) := by
    decide +kernel
  have hbytes : ∀ segment ∈ gappedDeclaration.segments, ∀ k : Nat, (k : Int) < segment.fileSize →
      Bytes.byteAt gappedDump (segment.virtualAddress - gappedDeclaration.base + k).toNat =
        Bytes.byteAt gappedFile (segment.fileOffset + k).toNat := by
    refine List.forall_mem_cons.mpr ⟨fun k hk => ?_, List.forall_mem_singleton.mpr fun k hk => ?_⟩
    · simpa [gappedDeclaration] using hfirst k (Int.ofNat_lt.mp hk)
    · exact hsecond k (Int.ofNat_lt.mp hk)
  refine ⟨_, _, himage, hdump, ?read,
    (dump_reads_like_file hdeclared himage hdump hbytes).1 0x1079 2 "word" _ ?read⟩
  cbv

end Image

end TypeAtlas
