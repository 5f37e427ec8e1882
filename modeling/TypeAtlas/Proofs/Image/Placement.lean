import Mathlib
import TypeAtlas.Image.Load
import TypeAtlas.Parsing.Formats
import TypeAtlas.Proofs.Outcome

namespace TypeAtlas

open Logged

variable {parsers : Parsers} {data : ByteArray}

namespace Segment

/-- The file does not exceed a segment. -/
def Sized (segment : Segment) : Prop :=
  0 ≤ segment.fileSize ∧ segment.fileSize ≤ segment.virtualSize

/-- The file range of a segment lies in a file, unless it is empty, and the segment ends within the
address space. -/
def Fits (data : ByteArray) (segment : Segment) : Prop :=
  (segment.fileSize ≠ 0 → 0 ≤ segment.fileOffset ∧ 0 ≤ segment.fileSize ∧
    segment.fileOffset + segment.fileSize ≤ data.size) ∧ segment.stop ≤ Placement.lastAddress

/-- A segment ends where another one starts, or below. -/
def Precedes (segment other : Segment) : Prop :=
  segment.stop ≤ other.virtualAddress

/-- A segment takes up addresses of 64 bits, and the part that the file fills lies in the file. -/
structure Placed (data : ByteArray) (segment : Segment) : Prop where
  virtualSize_pos : 0 < segment.virtualSize
  fileSize_nonneg : 0 ≤ segment.fileSize
  fileSize_le : segment.fileSize ≤ segment.virtualSize
  stop_le : segment.stop ≤ 2 ^ 64 - 1
  inFile : 0 < segment.fileSize →
    0 ≤ segment.fileOffset ∧ segment.fileOffset + segment.fileSize ≤ data.size

theorem Placed.of_fits {segment : Segment} (hsized : segment.Sized) (hfits : segment.Fits data)
    (hpresent : segment.virtualSize ≠ 0) : segment.Placed data where
  virtualSize_pos := by
    have hle := hsized.1.trans hsized.2
    omega
  fileSize_nonneg := hsized.1
  fileSize_le := hsized.2
  stop_le := hfits.2
  inFile hpos := by
    obtain ⟨hoffset, -, hstop⟩ := hfits.1 (by omega)
    exact ⟨hoffset, hstop⟩

theorem Precedes.apart {segment other : Segment} (h : segment.Precedes other)
    (hpos : 0 < segment.virtualSize) : segment.virtualAddress < other.virtualAddress ∧
      ∀ address, segment.contains address = true → other.contains address = false := by
  unfold Precedes stop at h
  refine ⟨by omega, fun address hcontains => ?_⟩
  rw [contains_iff, stop] at hcontains
  rw [Bool.eq_false_iff, ne_eq, contains_iff]
  omega

end Segment

namespace Placement

open Segment

variable {segment : Segment} {segments : List Segment}

theorem require_isOk_iff {offset size : Int} {what : String} :
    Image.require data offset size what = .ok () ↔
      0 ≤ offset ∧ 0 ≤ size ∧ offset + size ≤ data.size := by
  unfold Image.require Bytes.inBounds
  split <;> simp_all [and_assoc]

theorem checkOrder_isOk_iff {index : Nat} {previous : Option Segment} :
    checkOrder index previous segment = .ok () ↔
      ∀ before, previous = some before → before.Precedes segment := by
  unfold checkOrder Precedes
  cases previous with
  | none => simp
  | some before =>
      simp only [Option.some.injEq, forall_eq']
      split <;> simp_all

theorem checkSegment_isOk_iff {index : Nat} {previous : Option Segment} :
    checkSegment data index previous segment = .ok () ↔
      segment.Fits data ∧ ∀ before, previous = some before → before.Precedes segment := by
  have hbacked : segment.isFileBacked = true ↔ segment.fileSize ≠ 0 := by simp [isFileBacked]
  unfold checkSegment Fits
  dsimp only
  rw [ite_check_bind_eq_ok_iff, ite_check_bind_eq_ok_iff, require_isOk_iff, checkOrder_isOk_iff,
    hbacked, imp_iff_not throw_ne_ok, Int.not_lt, and_assoc]

theorem checkFrom_isOk_iff {index : Nat} {previous : Option Segment} :
    checkFrom data index previous segments = .ok () ↔
      (∀ segment ∈ segments, segment.Fits data) ∧
        (previous.toList ++ segments).IsChain Precedes := by
  induction segments generalizing index previous with
  | nil => cases previous <;> simp [checkFrom]
  | cons segment segments ih =>
      have hstep : checkFrom data index previous (segment :: segments) = .ok () ↔
          checkSegment data index previous segment = .ok () ∧
            checkFrom data (index + 1) (some segment) segments = .ok () :=
        check_bind_eq_ok_iff
      rw [hstep, checkSegment_isOk_iff, ih, List.forall_mem_cons]
      cases previous with
      | none => simp [and_assoc]
      | some before => simp [and_assoc, and_left_comm]

theorem check_isOk_iff :
    check data segments = .ok () ↔
      (∀ segment ∈ segments, segment.Fits data) ∧ segments.IsChain Precedes :=
  checkFrom_isOk_iff

theorem pairwise_precedes (hsized : ∀ segment ∈ segments, segment.Sized)
    (hchain : segments.IsChain Precedes) : segments.Pairwise Precedes := by
  induction segments with
  | nil => exact .nil
  | cons first segments ih =>
      cases segments with
      | nil => exact List.pairwise_singleton _ _
      | cons second segments =>
          rw [List.isChain_cons_cons] at hchain
          have hrest := ih (fun segment h => hsized segment (List.mem_cons_of_mem _ h)) hchain.2
          refine List.pairwise_cons.mpr ⟨fun other hother => ?_, hrest⟩
          rcases List.mem_cons.mp hother with rfl | hother
          · exact hchain.1
          · have hsecond := hsized second (List.mem_cons_of_mem _ List.mem_cons_self)
            have hnext := List.rel_of_pairwise_cons hrest hother
            have hfirst := hchain.1
            unfold Sized at hsecond
            unfold Precedes stop at hfirst hnext ⊢
            omega

end Placement

section Declarations

theorem Elf.sized_of_segmentsFrom {index : Nat} {programs : List Elf.Program}
    {segments : List Segment} (h : Elf.segmentsFrom index programs = .ok segments) :
    ∀ segment ∈ segments, segment.Sized := by
  induction programs generalizing index segments with
  | nil =>
      obtain rfl := Except.ok.inj h
      simp
  | cons program programs ih =>
      obtain ⟨first, hfirst, h⟩ := bind_eq_ok h
      obtain ⟨rest, hrest, h⟩ := bind_eq_ok h
      obtain rfl := Except.ok.inj h
      refine List.forall_mem_cons.mpr ⟨?_, ih hrest⟩
      unfold Elf.segment at hfirst
      split at hfirst
      · cases hfirst
      · obtain rfl := Except.ok.inj hfirst
        unfold Segment.Sized
        dsimp only
        omega

theorem Elf.sized_of_declaration {declared : Declaration}
    (h : Elf.declaration parsers data = .ok declared) :
    ∀ segment ∈ declared.segments, segment.Sized := by
  unfold Elf.declaration at h
  obtain ⟨header, -, h⟩ := bind_eq_ok h
  obtain ⟨-, -, h⟩ := bind_eq_ok h
  split at h
  · obtain ⟨segments, hsegments, h⟩ := bind_eq_ok h
    obtain rfl := Except.ok.inj h
    exact sized_of_segmentsFrom hsegments
  · cases h

theorem Pe.sized_of_declaration {declared : Declaration}
    (h : Pe.declaration parsers data = .ok declared) :
    ∀ segment ∈ declared.segments, segment.Sized := by
  unfold Pe.declaration at h
  obtain ⟨-, -, h⟩ := bind_eq_ok h
  split at h
  · split at h
    · obtain rfl := Except.ok.inj h
      intro segment hsegment
      obtain ⟨row, -, rfl⟩ := List.mem_map.mp hsegment
      unfold Segment.Sized Pe.Section.segment
      dsimp only
      omega
    · cases h
  · cases h

theorem MachO.sized_declaration (slice : MachO.Slice) :
    ∀ segment ∈ slice.declaration.segments, segment.Sized := by
  intro segment hsegment
  obtain ⟨command, -, rfl⟩ := List.mem_map.mp hsegment
  unfold Segment.Sized MachO.Command.segment
  dsimp only
  omega

/-- What the selected slice of a file declares, once its place has been checked. -/
def MachO.declarationOf (data : ByteArray) (slice : MachO.Slice) : Logged Declaration := do
  Logged.ofExcept (Image.require data slice.offset 4 "fat slice")
  return slice.declaration

theorem MachO.exists_of_declaration {declared : Declaration}
    (h : (MachO.declaration parsers data).outcome.1 = .ok declared) :
    ∃ slices slice, parsers.slices data = some slices ∧ MachO.select? slices = some slice ∧
      declared = slice.declaration := by
  have hlast : ∀ slice, Appends (MachO.declarationOf data slice) := fun _ =>
    (appends_ofExcept _).bind fun _ => appends_pure _
  unfold MachO.declaration at h
  obtain ⟨-, -, h⟩ := outcome_ofExcept_bind_eq_ok_iff.mp h
  split at h
  · next slices hslices =>
    split at h
    · next slice hselected =>
      have hslice : (MachO.declarationOf data slice).outcome.1 = .ok declared := by
        split at h
        · obtain ⟨_, -, h⟩ := exists_of_outcome_bind (fun _ => hlast slice) h
          exact h
        · exact h
      obtain ⟨_, -, hslice⟩ := outcome_ofExcept_bind_eq_ok_iff.mp hslice
      exact ⟨slices, slice, hslices, hselected, (Except.ok.inj hslice).symm⟩
    · cases h
  · cases h

theorem Container.sized_of_declaration {container : Container} {declared : Declaration}
    (h : (container.declaration parsers data).outcome.1 = .ok declared) :
    ∀ segment ∈ declared.segments, segment.Sized := by
  cases container with
  | elf => exact Elf.sized_of_declaration h
  | pe => exact Pe.sized_of_declaration h
  | machO =>
      obtain ⟨slices, slice, -, -, rfl⟩ := MachO.exists_of_declaration h
      exact MachO.sized_declaration slice

end Declarations

namespace Placement

open Segment

variable {declared : Declaration} {segment : Segment}

theorem mem_segments_iff {dumpBase : Option Int} :
    segment ∈ segments declared dumpBase ↔
      ∃ source ∈ declared.segments, source.virtualSize ≠ 0 ∧
        segment = dumpBase.elim source fun base => rebase declared.base base source := by
  cases dumpBase with
  | none =>
      simp only [segments, List.mem_filter, bne_iff_ne, ne_eq, Option.elim_none]
      constructor
      · rintro ⟨hsource, hsize⟩
        exact ⟨segment, hsource, hsize, rfl⟩
      · rintro ⟨source, hsource, hsize, rfl⟩
        exact ⟨hsource, hsize⟩
  | some base =>
      simp only [segments, List.mem_map, List.mem_filter, bne_iff_ne, ne_eq, Option.elim_some,
        and_assoc, eq_comm (a := segment)]

theorem sized_rebase {base dumpBase : Int} (h : segment.Sized) :
    (rebase base dumpBase segment).Sized :=
  ⟨h.1.trans h.2, le_refl _⟩

theorem sized_of_mem_segments {dumpBase : Option Int}
    (hsized : ∀ source ∈ declared.segments, source.Sized)
    (h : segment ∈ segments declared dumpBase) : segment.Sized ∧ segment.virtualSize ≠ 0 := by
  obtain ⟨source, hsource, hpresent, rfl⟩ := mem_segments_iff.mp h
  cases dumpBase with
  | none => exact ⟨hsized source hsource, hpresent⟩
  | some base => exact ⟨sized_rebase (hsized source hsource), hpresent⟩

theorem dumped_of_mem_segments {base : Int} (h : segment ∈ segments declared (some base)) :
    segment.fileOffset = segment.virtualAddress - base ∧
      segment.fileSize = segment.virtualSize := by
  obtain ⟨source, -, -, rfl⟩ := mem_segments_iff.mp h
  refine ⟨?_, rfl⟩
  change source.virtualAddress - declared.base =
    base + (source.virtualAddress - declared.base) - base
  omega

end Placement

namespace Image

open Segment

variable {dumpBase : Option Int} {image : Image}

theorem ofDeclaration_eq_ok_iff {container : Container} {declared : Declaration} :
    ofDeclaration data container declared dumpBase = .ok image ↔
      Placement.check data (Placement.segments declared dumpBase) = .ok () ∧
        image =
          { data, container, machine := declared.machine, width := declared.width
            base := dumpBase.getD declared.base
            segments := Placement.segments declared dumpBase, isDumped := dumpBase.isSome } := by
  unfold ofDeclaration
  dsimp only
  rw [check_bind_eq_ok_iff]
  exact and_congr_right fun _ => ⟨fun h => (Except.ok.inj h).symm, fun h => h ▸ rfl⟩

/-- A file is loaded exactly if its format is known, its headers can be read, and the segments that
they declare have been placed. -/
theorem load_eq_ok_iff :
    (load parsers data dumpBase).outcome.1 = .ok image ↔
      ∃ container declared, Container.detect data = .ok container ∧
        (container.declaration parsers data).outcome.1 = .ok declared ∧
          ofDeclaration data container declared dumpBase = .ok image := by
  unfold load
  rw [outcome_ofExcept_bind_eq_ok_iff]
  refine exists_congr fun container => ?_
  constructor
  · rintro ⟨hcontainer, h⟩
    obtain ⟨declared, hdeclared, h⟩ := exists_of_outcome_bind (fun _ => appends_ofExcept _) h
    exact ⟨declared, hcontainer, hdeclared, h⟩
  · rintro ⟨declared, hcontainer, hdeclared, h⟩
    refine ⟨hcontainer, (outcome_bind_ok hdeclared (appends_ofExcept _)).trans h⟩

theorem placed_of_declaration {file : ByteArray} {container origin : Container}
    {declared : Declaration}
    (hdeclared : (origin.declaration parsers file).outcome.1 = .ok declared)
    (h : ofDeclaration data container declared dumpBase = .ok image) :
    (∀ segment ∈ Placement.segments declared dumpBase, segment.Placed data) ∧
      (Placement.segments declared dumpBase).Pairwise Precedes := by
  obtain ⟨hcheck, -⟩ := ofDeclaration_eq_ok_iff.mp h
  obtain ⟨hfits, hchain⟩ := Placement.check_isOk_iff.mp hcheck
  have hsized : ∀ segment ∈ Placement.segments declared dumpBase,
      segment.Sized ∧ segment.virtualSize ≠ 0 := fun _ hsegment =>
    Placement.sized_of_mem_segments (Container.sized_of_declaration hdeclared) hsegment
  exact ⟨fun segment hsegment => .of_fits (hsized segment hsegment).1 (hfits segment hsegment)
    (hsized segment hsegment).2, Placement.pairwise_precedes (fun s hs => (hsized s hs).1) hchain⟩

/-- An image holds the file from which it is loaded, in which its segments are placed in order. -/
theorem placed_of_load (h : (load parsers data dumpBase).outcome.1 = .ok image) :
    image.data = data ∧ (∀ segment ∈ image.segments, segment.Placed data) ∧
      image.segments.Pairwise Precedes := by
  obtain ⟨container, declared, -, hdeclared, hplaced⟩ := load_eq_ok_iff.mp h
  obtain ⟨-, rfl⟩ := ofDeclaration_eq_ok_iff.mp hplaced
  exact ⟨rfl, placed_of_declaration hdeclared hplaced⟩

/-- The segments of an image take up addresses of 64 bits, and their file ranges lie in the file.
Each segment ends before all later ones start. In a memory dump the distance of a segment from the
address of the dump is its place in the file, which fills the segment. -/
theorem layout_of_load (h : (load parsers data dumpBase).outcome.1 = .ok image) :
    image.data = data ∧ (∀ segment ∈ image.segments, segment.Placed data) ∧
      (image.segments.Pairwise fun segment later =>
        segment.stop ≤ later.virtualAddress ∧ segment.virtualAddress < later.virtualAddress ∧
          ∀ address, segment.contains address = true → later.contains address = false) ∧
      ∀ base, dumpBase = some base → ∀ segment ∈ image.segments,
        segment.fileOffset = segment.virtualAddress - base ∧
          segment.fileSize = segment.virtualSize := by
  obtain ⟨container, declared, -, hdeclared, hplaced⟩ := load_eq_ok_iff.mp h
  obtain ⟨hcheck, rfl⟩ := ofDeclaration_eq_ok_iff.mp hplaced
  obtain ⟨hfits, hchain⟩ := Placement.check_isOk_iff.mp hcheck
  have hsized : ∀ segment ∈ Placement.segments declared dumpBase,
      segment.Sized ∧ segment.virtualSize ≠ 0 := fun _ hsegment =>
    Placement.sized_of_mem_segments (Container.sized_of_declaration hdeclared) hsegment
  have hplaced : ∀ segment ∈ Placement.segments declared dumpBase, segment.Placed data :=
    fun segment hsegment => .of_fits (hsized segment hsegment).1 (hfits segment hsegment)
      (hsized segment hsegment).2
  refine ⟨rfl, hplaced, ?_, ?_⟩
  · have hpairwise := Placement.pairwise_precedes (fun s hs => (hsized s hs).1) hchain
    refine hpairwise.imp_of_mem fun hsegment _ hprecedes => ⟨hprecedes, ?_⟩
    exact Precedes.apart hprecedes (hplaced _ hsegment).virtualSize_pos
  · rintro base rfl segment hsegment
    exact Placement.dumped_of_mem_segments hsegment

/-- A file for a 32-bit machine that declares two segments. The file does not fill the second one,
and four bytes between them belong to none. -/
def twoPartFile : ByteArray :=
  ⟨#[0x7F, 0x45, 0x4C, 0x46, 1, 1, 1, 0, 0, 0, 0, 0, 0, 0, 0, 0, 2, 0, 3, 0, 1, 0, 0, 0,
    0, 0, 0, 0, 52, 0, 0, 0, 0, 0, 0, 0, 0, 0, 0, 0, 52, 0, 32, 0, 2, 0, 40, 0, 0, 0, 0, 0,
    1, 0, 0, 0, 0, 0, 0, 0, 0, 0, 0, 0, 0, 0, 0, 0, 100, 0, 0, 0, 100, 0, 0, 0, 5, 0, 0, 0,
    4, 0, 0, 0, 1, 0, 0, 0, 104, 0, 0, 0, 104, 0, 0, 0, 0, 0, 0, 0, 0, 0, 0, 0, 12, 0, 0, 0,
    6, 0, 0, 0, 4, 0, 0, 0]⟩

/-- The file as a memory dump. -/
def twoPartImage : Image where
  data := twoPartFile
  container := .elf
  machine := .x86
  width := .bits32
  base := 0x400000
  segments :=
    [⟨"LOAD0", 0, 100, 0x400000, 100, ⟨true, false, true⟩⟩,
      ⟨"LOAD1", 104, 12, 0x400068, 12, ⟨true, true, false⟩⟩]
  isDumped := true

set_option maxRecDepth 2000 in
theorem layout_twoPartImage :
    (load formatParsers twoPartFile (some 0x400000)).outcome.1 = .ok twoPartImage ∧
      (∀ segment ∈ twoPartImage.segments, segment.Placed twoPartFile) ∧
        ∀ segment ∈ twoPartImage.segments,
          segment.fileOffset = segment.virtualAddress - 0x400000 ∧
            segment.fileSize = segment.virtualSize := by
  have hdeclared : Elf.declaration formatParsers twoPartFile =
      .ok ⟨.x86, .bits32, 0, [⟨"LOAD0", 0, 100, 0, 100, ⟨true, false, true⟩⟩,
        ⟨"LOAD1", 104, 0, 104, 12, ⟨true, true, false⟩⟩]⟩ := by cbv
  have hload : (load formatParsers twoPartFile (some 0x400000)).outcome.1 = .ok twoPartImage :=
    load_eq_ok_iff.mpr ⟨.elf, _, by cbv, hdeclared, by cbv⟩
  obtain ⟨-, hplaced, -, hdumped⟩ := layout_of_load hload
  exact ⟨hload, hplaced, hdumped _ rfl⟩

end Image

end TypeAtlas
