import TypeAtlas.Proofs.Image.Dumps
import TypeAtlas.Proofs.Outcome

namespace TypeAtlas

namespace Segment

variable {data : ByteArray}

/-- The file fills some addresses of a segment, given by the first one and their number. -/
def Fills (segment : Segment) (address size : Int) : Prop :=
  segment.virtualAddress ≤ address ∧ address < segment.fileStop ∧ 0 ≤ size ∧
    address + size ≤ segment.fileStop

instance (segment : Segment) (address size : Int) : Decidable (segment.Fills address size) :=
  inferInstanceAs (Decidable (_ ∧ _))

/-- The bytes of a segment from an address on among which a text has to end. -/
def window (segment : Segment) (data : ByteArray) (address : Int) : List UInt8 :=
  (Bytes.slice data (Memory.placeIn segment address)
    (min Memory.maxTextSize (segment.fileStop - address).toNat)).toList

end Segment

namespace Memory

variable {memory : Memory} {segment : Segment} {address size count : Int} {what : String}
  {fault : Fault}

theorem backs_iff : memory.Backs segment address size ↔
    segment ∈ memory.space.byAddress ∧ segment.Fills address size :=
  ⟨fun h => ⟨h.mem, h.start_le, h.lt_stop, h.size_nonneg, h.stop_le⟩,
    fun ⟨hmem, hstart, hlt, hsize, hstop⟩ => ⟨hmem, hstart, hlt, hsize, hstop⟩⟩

theorem Backs.placeIn_eq (h : memory.Laid) (hbacks : memory.Backs segment address size) :
    (placeIn segment address : Int) =
      segment.fileOffset + (address - segment.virtualAddress) := by
  have hoffset := (hbacks.place_le h).1
  have hstart := hbacks.start_le
  rw [placeIn]
  omega

section Rejected

theorem readBytes_eq_error (h : memory.readBytes address size what = .error fault) :
    fault.kind = .addressOutOfBounds ∧ fault.offset = some address := by
  unfold readBytes at h
  split at h
  · cases h
  · obtain rfl := Except.error.inj h
    exact ⟨rfl, rfl⟩

theorem readText_eq_error (h : memory.readText address what = .error fault) :
    fault.kind = .addressOutOfBounds ∧ fault.offset = some address := by
  unfold readText at h
  split at h
  · obtain rfl := Except.error.inj h
    exact ⟨rfl, rfl⟩
  · cases h

theorem readText_isError_iff (h : memory.Laid) :
    (∃ fault, memory.readText address what = .error fault) ↔
      ∀ segment ∈ memory.space.byAddress, ¬segment.Fills address 0 := by
  have hnone : memory.segmentFor? address 0 = none ↔
      ∀ segment ∈ memory.space.byAddress, ¬segment.Fills address 0 := by
    rw [Option.eq_none_iff_forall_ne_some]
    simp only [ne_eq, segmentFor?_eq_some_iff h, backs_iff, not_and]
  rw [← hnone, readText]
  cases memory.segmentFor? address 0 with
  | none => simp
  | some segment => simp

end Rejected

section Words

/-- The words that the file has in a segment, one after the other from an address on. -/
def wordsAt (data : ByteArray) (segment : Segment) (width : Nat) (address count : Int) :
    List Nat :=
  (List.range count.toNat).map fun row : Nat =>
    Bytes.littleEndian data (placeIn segment (address + row * width)) width

theorem readWords_isOk_iff {width : Nat} (hcount : count ≠ 0) :
    (∃ found, memory.readWords width address count what = .ok found) ↔
      ∃ bytes, memory.readBytes address (count * width) what = .ok bytes := by
  rw [readWords, if_neg hcount, map_isOk_iff]

theorem readWords_eq_error {width : Nat} (hcount : count ≠ 0)
    (h : memory.readWords width address count what = .error fault) :
    memory.readBytes address (count * width) what = .error fault := by
  rw [readWords, if_neg hcount] at h
  exact map_eq_error h

theorem words_slice (h : memory.Laid) {width : Nat}
    (hbacks : memory.Backs segment address (count * width)) :
    words (Bytes.slice memory.data (placeIn segment address) (count * width).toNat) width
      count.toNat = wordsAt memory.data segment width address count := by
  obtain ⟨hoffset, hplace⟩ := hbacks.place_le h
  have hstart := hbacks.start_le
  apply List.map_congr_left
  intro row hrow
  have hlt : (row : Int) + 1 ≤ count := by
    have := List.mem_range.mp hrow
    omega
  -- The word ends no later than the last one.
  have hrows : (row + 1 : Int) * width ≤ count * width :=
    mul_le_mul_of_nonneg_right hlt (Int.natCast_nonneg width)
  have hsize : row * width + width ≤ (count * width).toNat := by
    rw [← Int.ofNat_le, Int.toNat_of_nonneg hbacks.size_nonneg]
    push_cast
    linarith
  have hrow_place : placeIn segment (address + row * width) =
      placeIn segment address + row * width := by
    have hcast : ((row * width : Nat) : Int) = row * width := Int.natCast_mul row width
    unfold placeIn
    omega
  rw [hrow_place]
  apply Bytes.littleEndian_slice
  rw [Bytes.slice, ByteArray.size_extract]
  omega

theorem readWords_eq_ok (h : memory.Laid) {width : Nat} {found : List Nat} (hcount : count ≠ 0)
    (hread : memory.readWords width address count what = .ok found) :
    ∃ segment, memory.Backs segment address (count * width) ∧
      found = wordsAt memory.data segment width address count := by
  rw [readWords, if_neg hcount] at hread
  obtain ⟨bytes, hbytes, rfl⟩ := map_eq_ok hread
  obtain ⟨segment, hbacks, rfl⟩ := (readBytes_eq_ok_iff h).mp hbytes
  exact ⟨segment, hbacks, words_slice h hbacks⟩

theorem readInts_isOk_iff (hcount : count ≠ 0) :
    (∃ found, memory.readInts address count what = .ok found) ↔
      ∃ bytes, memory.readBytes address (count * 4) what = .ok bytes := by
  rw [readInts, map_isOk_iff]
  exact readWords_isOk_iff hcount

theorem readInts_eq_error (hcount : count ≠ 0)
    (h : memory.readInts address count what = .error fault) :
    memory.readBytes address (count * 4) what = .error fault := by
  rw [readInts] at h
  exact readWords_eq_error hcount (map_eq_error h)

theorem readInts_eq_ok (h : memory.Laid) {found : List Int} (hcount : count ≠ 0)
    (hread : memory.readInts address count what = .ok found) :
    ∃ segment, memory.Backs segment address (count * 4) ∧
      found = (wordsAt memory.data segment 4 address count).map fun word : Nat =>
        Bytes.toSigned word 4 := by
  rw [readInts] at hread
  obtain ⟨words, hwords, rfl⟩ := map_eq_ok hread
  obtain ⟨segment, hbacks, rfl⟩ := readWords_eq_ok h hcount hwords
  exact ⟨segment, hbacks, rfl⟩

end Words

theorem readText_eq (h : memory.Laid) (hbacks : memory.Backs segment address 0) :
    memory.readText address what = .ok (if 0 ∈ segment.window memory.data address then
      some (Text.decode ((segment.window memory.data address).takeWhile (· != 0))) else none) := by
  rw [readText, (segmentFor?_eq_some_iff h).mpr hbacks]
  dsimp only
  rw [Bytes.cString?_eq, Segment.window]
  split
  · rw [Option.map_some, Bytes.toList_toByteArray]
  · rfl

end Memory

namespace Image

open Memory Segment

variable {parsers : Parsers} {data : ByteArray} {dumpBase : Option Int} {image : Image}
  {needle : List UInt8}

theorem backs_memory_iff {segment : Segment} {address size : Int} :
    image.memory.Backs segment address size ↔
      segment ∈ image.segments ∧ segment.Fills address size := by
  rw [backs_iff, memory, AddressSpace.mem_ofSegments]

theorem readBytes_memory_eq_ok_iff (h : image.memory.Laid) {address size : Int} {what : String}
    {bytes : ByteArray} : image.memory.readBytes address size what = .ok bytes ↔
      ∃ segment ∈ image.segments, segment.Fills address size ∧
        Bytes.slice image.data (placeIn segment address) size.toNat = bytes := by
  rw [readBytes_eq_ok_iff h]
  simp only [backs_memory_iff, and_assoc]
  rfl

theorem placeIn_of_fills (h : image.memory.Laid) {segment : Segment} {address size : Int}
    (hmem : segment ∈ image.segments) (hfills : segment.Fills address size) :
    (placeIn segment address : Int) = segment.fileOffset + (address - segment.virtualAddress) ∧
      placeIn segment address + size ≤ image.data.size := by
  have hbacks : image.memory.Backs segment address size := backs_memory_iff.mpr ⟨hmem, hfills⟩
  have hplace : placeIn segment address + size.toNat ≤ image.data.size := (hbacks.place_le h).2
  have hsize := hbacks.size_nonneg
  exact ⟨hbacks.placeIn_eq h, by omega⟩

/-- Reads of an image that has been loaded give what the file has, or they are rejected with their
address. Bytes are read exactly if the file fills their addresses in one segment, and it has all of
them. Arrays with members are read exactly if their bytes are, and their members are the words at
their addresses. A text is read wherever the file fills a segment, up to the first zero byte if
there is one soon enough before the end of what the file fills. -/
theorem reads_of_load (h : (load parsers data dumpBase).outcome.1 = .ok image) :
    (∀ segment ∈ image.segments, ∀ address size, segment.Fills address size →
        (placeIn segment address : Int) =
          segment.fileOffset + (address - segment.virtualAddress) ∧
            placeIn segment address + size ≤ image.data.size) ∧
      (∀ address size what bytes, image.memory.readBytes address size what = .ok bytes ↔
        ∃ segment ∈ image.segments, segment.Fills address size ∧
          Bytes.slice image.data (placeIn segment address) size.toNat = bytes) ∧
      (∀ address size what fault, image.memory.readBytes address size what = .error fault →
        fault.kind = .addressOutOfBounds ∧ fault.offset = some address) ∧
      (∀ address count what, count ≠ 0 →
        ((∃ found, image.memory.readPointers address count what = .ok found) ↔
          ∃ bytes, image.memory.readBytes address (count * image.width.bytes) what = .ok bytes) ∧
        (∀ fault, image.memory.readPointers address count what = .error fault →
          image.memory.readBytes address (count * image.width.bytes) what = .error fault) ∧
        ∀ found, image.memory.readPointers address count what = .ok found →
          ∃ segment ∈ image.segments, segment.Fills address (count * image.width.bytes) ∧
            found = wordsAt image.data segment image.width.bytes address count) ∧
      (∀ address count what, count ≠ 0 →
        ((∃ found, image.memory.readInts address count what = .ok found) ↔
          ∃ bytes, image.memory.readBytes address (count * 4) what = .ok bytes) ∧
        (∀ fault, image.memory.readInts address count what = .error fault →
          image.memory.readBytes address (count * 4) what = .error fault) ∧
        ∀ found, image.memory.readInts address count what = .ok found →
          ∃ segment ∈ image.segments, segment.Fills address (count * 4) ∧
            found = (wordsAt image.data segment 4 address count).map fun word : Nat =>
              Bytes.toSigned word 4) ∧
      ∀ address what,
        ((∃ fault, image.memory.readText address what = .error fault) ↔
          ∀ segment ∈ image.segments, ¬segment.Fills address 0) ∧
        (∀ fault, image.memory.readText address what = .error fault →
          fault.kind = .addressOutOfBounds ∧ fault.offset = some address) ∧
        ∀ segment ∈ image.segments, segment.Fills address 0 →
          image.memory.readText address what =
            .ok (if 0 ∈ segment.window image.data address then
              some (Text.decode ((segment.window image.data address).takeWhile (· != 0)))
            else none) := by
  have hlaid := laid_of_load h
  refine ⟨fun segment hmem address size => placeIn_of_fills hlaid hmem,
    fun _ _ _ _ => readBytes_memory_eq_ok_iff hlaid, fun _ _ _ _ => readBytes_eq_error,
    fun address count what hcount => ⟨readWords_isOk_iff hcount,
      fun fault => readWords_eq_error hcount, fun found hread => ?pointers⟩,
    fun address count what hcount => ⟨readInts_isOk_iff hcount,
      fun fault => readInts_eq_error hcount, fun found hread => ?ints⟩,
    fun address what => ⟨?outside, fun _ => readText_eq_error, fun segment hmem hfills => ?text⟩⟩
  case pointers =>
    obtain ⟨segment, hbacks, hfound⟩ := readWords_eq_ok hlaid hcount hread
    obtain ⟨hmem, hfills⟩ := backs_memory_iff.mp hbacks
    exact ⟨segment, hmem, hfills, hfound⟩
  case ints =>
    obtain ⟨segment, hbacks, hfound⟩ := readInts_eq_ok hlaid hcount hread
    obtain ⟨hmem, hfills⟩ := backs_memory_iff.mp hbacks
    exact ⟨segment, hmem, hfills, hfound⟩
  case outside =>
    rw [readText_isError_iff hlaid]
    simp only [memory, AddressSpace.mem_ofSegments]
  case text =>
    exact readText_eq hlaid (backs_memory_iff.mpr ⟨hmem, hfills⟩)

/-- The file with a gap as it is loaded. -/
def gappedImage : Image where
  data := gappedFile
  container := .elf
  machine := .x86
  width := .bits32
  base := 0x1000
  segments := gappedDeclaration.segments
  isDumped := false

set_option maxRecDepth 4000 in
theorem load_gappedFile : (load formatParsers gappedFile none).outcome.1 = .ok gappedImage :=
  load_eq_ok_iff.mpr ⟨.elf, gappedDeclaration, by cbv, by cbv, by cbv⟩

set_option maxRecDepth 4000 in
theorem reads_gappedImage :
    (∃ bytes, gappedImage.memory.readBytes 0x107A 2 "word" = .ok bytes) ∧
      (¬∃ bytes, gappedImage.memory.readBytes 0x107B 2 "word" = .ok bytes) ∧
        gappedImage.memory.readPointers 0x1078 1 "pointer" = .ok [0xEFBEADDE] ∧
          gappedImage.memory.readText 0x1001 "name" = .ok (some "ELF\x01\x01\x01") ∧
            gappedImage.memory.readText 0x1078 "name" = .ok none := by
  obtain ⟨-, hbytes, -, hpointers, -, htext⟩ := reads_of_load load_gappedFile
  refine ⟨⟨_, (hbytes _ _ _ _).mpr ⟨_, .tail _ (.head _), by decide, rfl⟩⟩, ?_, ?_,
    ((htext _ _).2.2 _ (.head _) (by decide)).trans (congrArg _ (by decide +kernel)),
    ((htext _ _).2.2 _ (.tail _ (.head _)) (by decide)).trans (congrArg _ (by decide +kernel))⟩
  · rintro ⟨bytes, hread⟩
    obtain ⟨segment, hmem, hfills, -⟩ := (hbytes _ _ _ _).mp hread
    have hnone : ∀ segment ∈ gappedImage.segments, ¬segment.Fills 0x107B 2 := by decide
    exact hnone segment hmem hfills
  · have hword : gappedImage.memory.readBytes 0x1078 4 "pointer" = .ok _ :=
      (hbytes _ _ _ _).mpr ⟨_, .tail _ (.head _), by decide, rfl⟩
    obtain ⟨hread, -, hfound⟩ := hpointers 0x1078 1 "pointer" one_ne_zero
    obtain ⟨found, hread⟩ := hread.mpr ⟨_, hword⟩
    obtain ⟨segment, hmem, hfills, rfl⟩ := hfound found hread
    have hwords : ∀ segment ∈ gappedImage.segments, segment.Fills 0x1078 4 →
        wordsAt gappedImage.data segment 4 0x1078 1 = [0xEFBEADDE] := by decide +kernel
    exact hread.trans (congrArg _ (hwords segment hmem hfills))

/-- The bytes that are looked for are found at the addresses from which they can be read, each of
which is found once, in ascending order. -/
theorem findBytes_of_load (h : (load parsers data dumpBase).outcome.1 = .ok image)
    (hneedle : needle ≠ []) :
    (image.memory.findBytes needle).Pairwise (· < ·) ∧
      ∀ address what, address ∈ image.memory.findBytes needle ↔
        image.memory.readBytes address needle.length what = .ok needle.toByteArray := by
  have hlaid := laid_of_load h
  exact ⟨pairwise_findBytes hlaid hneedle, fun _ what => mem_findBytes_iff hlaid hneedle what⟩

set_option maxRecDepth 4000 in
theorem findBytes_gappedImage :
    gappedImage.memory.findBytes [0, 0, 0, 0, 0, 0, 0, 0] =
        [0x1007, 0x1008, 0x101D, 0x101E, 0x101F, 0x1020, 0x1035] ∧
      gappedImage.memory.readBytes 0x1008 8 "zeros" = .ok [0, 0, 0, 0, 0, 0, 0, 0].toByteArray ∧
        0x107A ∈ gappedImage.memory.findBytes [0xBE, 0xEF] := by
  have hfound : gappedImage.memory.findBytes [0, 0, 0, 0, 0, 0, 0, 0] =
      [0x1007, 0x1008, 0x101D, 0x101E, 0x101F, 0x1020, 0x1035] := by
    have hsegments : gappedImage.memory.space.byAddress = gappedImage.segments := by cbv
    rw [findBytes, hsegments]
    decide +kernel
  obtain ⟨-, hzeros⟩ := findBytes_of_load load_gappedFile (List.cons_ne_nil 0 [0, 0, 0, 0, 0, 0, 0])
  obtain ⟨-, hlast⟩ := findBytes_of_load load_gappedFile (List.cons_ne_nil 0xBE [0xEF])
  exact ⟨hfound, (hzeros 0x1008 "zeros").mp (by simp [hfound]), (hlast _ "last").mpr (by cbv)⟩

end Image

end TypeAtlas
