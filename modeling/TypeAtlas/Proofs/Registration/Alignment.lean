import TypeAtlas.Proofs.Registration.Arrays

namespace TypeAtlas.Image

open Memory Scan

variable {parsers : Parsers} {data : ByteArray} {dumpBase : Option Int} {image : Image}
  {segment : Segment} {address : Int} {value : Nat}

/-- An address lies in a segment that is not executed. -/
def IsData (image : Image) (address : Int) : Prop :=
  ∃ segment ∈ image.segments, segment.contains address = true ∧ segment.isExecutable = false

/-- A multiple of the width of pointers. -/
def IsAligned (image : Image) (address : Int) : Prop :=
  (image.width.bytes : Int) ∣ address

instance (image : Image) : DecidablePred image.IsAligned :=
  fun _ => inferInstanceAs (Decidable (_ ∣ _))

theorem IsAligned.sub_iff {start : Int} (h : image.IsAligned start) :
    image.IsAligned (address - start) ↔ image.IsAligned address :=
  dvd_sub_left h

theorem not_isAligned_of_sub {start : Int} (hstart : ¬image.IsAligned start)
    (h : image.IsAligned (address - start)) : ¬image.IsAligned address :=
  fun haddress => hstart ((dvd_sub_right haddress).mp h)

theorem inData_iff_of_contains (h : image.memory.Laid) (hmem : segment ∈ image.segments)
    (hcontains : segment.contains address = true) (hdata : segment.isExecutable = false) :
    image.memory.InData address ↔ image.IsAligned (address - segment.virtualAddress) := by
  have hat := (segmentAt?_eq_some_iff h).mpr ⟨AddressSpace.mem_ofSegments.mpr hmem, hcontains⟩
  constructor
  · rintro ⟨other, hother, hin, -, haligned⟩
    have hfound := (segmentAt?_eq_some_iff h).mpr ⟨hother, hin⟩
    obtain rfl := Option.some.inj (hat.symm.trans hfound)
    exact haligned
  · intro haligned
    exact ⟨segment, AddressSpace.mem_ofSegments.mpr hmem, hcontains, hdata, haligned⟩

theorem isData_of_inData (h : image.memory.InData address) : image.IsData address := by
  obtain ⟨segment, hmem, hcontains, hdata, -⟩ := h
  exact ⟨segment, AddressSpace.mem_ofSegments.mp hmem, hcontains, hdata⟩

/-- A value stands in a segment that is not executed and starts at no multiple of the width of
pointers, at a multiple of the width or at a multiple of it from the start of the segment. -/
def HoldsSkewed (image : Image) (value : Nat) : Prop :=
  ∃ segment ∈ image.segments, segment.isExecutable = false ∧
    ¬image.IsAligned segment.virtualAddress ∧
    ∃ address, segment.contains address = true ∧ PointsTo image.memory address value ∧
      (image.IsAligned address ∨ image.IsAligned (address - segment.virtualAddress))

/-- The pointers that are looked for are those at multiples of their width, exactly if none of
either kind stands in a segment that starts at no multiple. -/
theorem forall_storedAt_iff (h : image.memory.Laid) :
    (∀ address, StoredAt image.memory address value ↔
      PointsTo image.memory address value ∧ image.IsAligned address ∧ image.IsData address) ↔
        ¬image.HoldsSkewed value := by
  constructor
  · rintro hall ⟨segment, hmem, hdata, hstart, address, hcontains, hpoints, haligned⟩
    have hin := inData_iff_of_contains h hmem hcontains hdata
    -- Either kind of alignment gives the other one, and so a start that is a multiple.
    have hstored : StoredAt image.memory address value := by
      rcases haligned with haligned | haligned
      · exact (hall address).mpr ⟨hpoints, haligned, segment, hmem, hcontains, hdata⟩
      · exact ⟨hpoints, hin.mpr haligned⟩
    exact not_isAligned_of_sub hstart (hin.mp hstored.2) ((hall address).mp hstored).2.1
  · intro hnone address
    refine and_congr_right fun hpoints => ?_
    have hsegment : ∀ segment ∈ image.segments, segment.contains address = true →
        segment.isExecutable = false →
          (image.IsAligned (address - segment.virtualAddress) ↔ image.IsAligned address) := by
      intro segment hmem hcontains hdata
      by_cases hstart : image.IsAligned segment.virtualAddress
      · exact hstart.sub_iff
      · have hskewed := fun haligned => hnone
          ⟨segment, hmem, hdata, hstart, address, hcontains, hpoints, haligned⟩
        exact iff_of_false (fun h => hskewed (.inr h)) (fun h => hskewed (.inl h))
    constructor
    · intro hin
      obtain ⟨segment, hmem, hcontains, hdata⟩ := isData_of_inData hin
      have haligned := (inData_iff_of_contains h hmem hcontains hdata).mp hin
      exact ⟨(hsegment segment hmem hcontains hdata).mp haligned, segment, hmem, hcontains, hdata⟩
    · rintro ⟨haligned, segment, hmem, hcontains, hdata⟩
      exact (inData_iff_of_contains h hmem hcontains hdata).mpr
        ((hsegment segment hmem hcontains hdata).mpr haligned)

/-- A value that fits a pointer is found at the addresses of data from which it can be read and that
are multiples of the width of pointers from the start of their segment, in ascending order. These
are the addresses of data that are multiples themselves exactly if none of either kind holds the
value in a segment that starts at no multiple. -/
theorem findPointer_of_load (h : (load parsers data dumpBase).outcome.1 = .ok image)
    (hvalue : value < 256 ^ image.width.bytes) :
    ∃ found, image.memory.findPointer value = .ok found ∧ found.Pairwise (· < ·) ∧
      (∀ address, address ∈ found ↔
        image.memory.readPointer address "pointer" = .ok value ∧
          ∃ segment ∈ image.segments, segment.contains address = true ∧
            segment.isExecutable = false ∧
              (image.width.bytes : Int) ∣ address - segment.virtualAddress) ∧
      ((∀ address, address ∈ found ↔
          image.memory.readPointer address "pointer" = .ok value ∧
            (image.width.bytes : Int) ∣ address ∧
              ∃ segment ∈ image.segments, segment.contains address = true ∧
                segment.isExecutable = false) ↔
        ¬image.HoldsSkewed value) := by
  have hlaid := laid_of_load h
  have hfits : Fits image.width value := ⟨Int.natCast_nonneg value, by exact_mod_cast hvalue⟩
  have hmem : ∀ address, address ∈ pointersTo image.memory value ↔
      StoredAt image.memory address value := fun _ => mem_pointersTo_iff hlaid hvalue
  refine ⟨pointersTo image.memory value, findPointer_eq_ok_iff.mpr ⟨hfits, rfl⟩,
    pairwise_findAligned hlaid (ofNat_ne_nil _ _), fun address => ?_, ?_⟩
  · rw [hmem, StoredAt, InData, memory]
    simp only [AddressSpace.mem_ofSegments]
    rfl
  · simp only [hmem]
    exact forall_storedAt_iff hlaid

/-- A file for a 32-bit machine with a segment at 0x1002 that holds a value twice, at 0x1004 and at
0x100A. -/
def skewedFile : ByteArray :=
  ⟨#[0x7F, 0x45, 0x4C, 0x46, 1, 1, 1, 0, 0, 0, 0, 0, 0, 0, 0, 0, 2, 0, 3, 0, 1, 0, 0, 0, 0, 0, 0, 0,
    0x34, 0, 0, 0, 0, 0, 0, 0, 0, 0, 0, 0, 0x34, 0, 0x20, 0, 1, 0, 0x28, 0, 0, 0, 0, 0, 1, 0, 0, 0,
    0x54, 0, 0, 0, 2, 0x10, 0, 0, 2, 0x10, 0, 0, 0x10, 0, 0, 0, 0x10, 0, 0, 0, 6, 0, 0, 0, 4, 0, 0,
    0, 0, 0, 0x44, 0x33, 0x22, 0x11, 0, 0, 0x44, 0x33, 0x22, 0x11, 0, 0, 0, 0]⟩

def skewedImage : Image where
  data := skewedFile
  container := .elf
  machine := .x86
  width := .bits32
  base := 0xFAE
  segments := [⟨"LOAD0", 84, 16, 0x1002, 16, ⟨true, true, false⟩⟩]
  isDumped := false

set_option maxRecDepth 4000 in
theorem load_skewedFile : (load formatParsers skewedFile none).outcome.1 = .ok skewedImage := by
  have hdeclared : Elf.declaration formatParsers skewedFile =
      .ok ⟨.x86, .bits32, 0xFAE, [⟨"LOAD0", 84, 16, 0x1002, 16, ⟨true, true, false⟩⟩]⟩ := by
    cbv
  exact load_eq_ok_iff.mpr ⟨.elf, _, by cbv, hdeclared, by cbv⟩

theorem findPointer_skewedImage : ∃ found,
    skewedImage.memory.findPointer 0x11223344 = .ok found ∧ 0x100A ∈ found ∧ 0x1004 ∉ found ∧
      skewedImage.memory.readPointer 0x1004 "pointer" = .ok 0x11223344 ∧
        skewedImage.HoldsSkewed 0x11223344 := by
  have hsecond : skewedImage.memory.readPointer 0x100A "pointer" = .ok 0x11223344 := by
    decide +kernel
  have hfirst : skewedImage.memory.readPointer 0x1004 "pointer" = .ok 0x11223344 := by
    decide +kernel
  have hvalue : 0x11223344 < 256 ^ skewedImage.width.bytes := by decide
  obtain ⟨found, hfound, -, hmem, -⟩ := findPointer_of_load load_skewedFile hvalue
  refine ⟨found, hfound, (hmem _).mpr ⟨hsecond, _, .head _, by decide, rfl, by decide⟩, ?_, hfirst,
    _, .head _, rfl, by decide, 0x1004, by decide, hfirst, .inl (by decide)⟩
  intro hmissed
  obtain ⟨-, segment, hsegment, -, -, haligned⟩ := (hmem _).mp hmissed
  obtain rfl := List.mem_singleton.mp hsegment
  exact absurd haligned (by decide)

end TypeAtlas.Image
