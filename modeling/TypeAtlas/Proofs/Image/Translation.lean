import Mathlib
import TypeAtlas.Image.AddressSpace

namespace TypeAtlas

namespace Segment

variable {segment : Segment} {segments : List Segment} {address offset : Int}

/-- The addresses of a segment. -/
def addresses (segment : Segment) : Set Int :=
  Set.Ico segment.virtualAddress segment.stop

/-- The offsets of the bytes of the file that fill a segment. -/
def offsets (segment : Segment) : Set Int :=
  Set.Ico segment.fileOffset (segment.fileOffset + segment.fileSize)

theorem mem_addresses_iff : address ∈ segment.addresses ↔ segment.contains address = true :=
  contains_iff.symm

/-- The address of what stands at an offset of the file that a segment holds. -/
def addressOf (segment : Segment) (offset : Int) : Int :=
  segment.virtualAddress + (offset - segment.fileOffset)

theorem addressOf_mem_addresses (hle : segment.fileSize ≤ segment.virtualSize)
    (h : offset ∈ segment.offsets) :
    segment.addressOf offset ∈ segment.addresses ∧ segment.addressOf offset < segment.fileStop := by
  obtain ⟨hstart, hstop⟩ := h
  rw [mem_addresses_iff, contains_iff, stop, fileStop, addressOf]
  omega

theorem isFileBacked_of_mem_offsets (h : offset ∈ segment.offsets) :
    segment.isFileBacked = true := by
  have hpos : segment.fileOffset < segment.fileOffset + segment.fileSize := h.1.trans_lt h.2
  simp only [isFileBacked, bne_iff_ne]
  omega

theorem eq_of_mem_of_apart {range : Segment → Set Int}
    (hapart : segments.Pairwise fun first later => Disjoint (range first) (range later))
    {first later : Segment} (hfirst : first ∈ segments) (hlater : later ∈ segments) {number : Int}
    (hmem : number ∈ range first) (hmem' : number ∈ range later) : first = later := by
  by_contra hne
  have hsymm : Std.Symm fun first later : Segment => Disjoint (range first) (range later) :=
    ⟨fun _ _ hdisjoint => hdisjoint.symm⟩
  exact Set.disjoint_left.mp (hapart.forall hfirst hlater hne) hmem hmem'

end Segment

section Sorted

variable {α : Type} {key : α → Int} {items : List α} {item : α}

theorem pairwise_mergeSort_key (key : α → Int) (items : List α) :
    (items.mergeSort fun a b => decide (key a ≤ key b)).Pairwise fun a b => key a ≤ key b := by
  have hsorted : (items.mergeSort fun a b => decide (key a ≤ key b)).Pairwise
      fun a b => decide (key a ≤ key b) = true := by
    apply List.pairwise_mergeSort
    · intro a b c hab hbc
      simp only [decide_eq_true_eq] at hab hbc ⊢
      exact hab.trans hbc
    · intro a b
      simpa using le_total (key a) (key b)
  simpa only [decide_eq_true_eq] using hsorted

theorem takeWhile_eq_filter (hsorted : items.Pairwise fun a b => key a ≤ key b) (bound : Int) :
    items.takeWhile (fun item => decide (key item ≤ bound)) =
      items.filter fun item => decide (key item ≤ bound) := by
  induction items with
  | nil => rfl
  | cons item items ih =>
      obtain ⟨hfirst, hrest⟩ := List.pairwise_cons.mp hsorted
      by_cases hitem : key item ≤ bound
      · rw [List.takeWhile_cons_of_pos (by simpa using hitem),
          List.filter_cons_of_pos (by simpa using hitem), ih hrest]
      · have hnone : ∀ later ∈ items, ¬decide (key later ≤ bound) = true := by
          intro later hlater
          have hle := hfirst later hlater
          simp only [decide_eq_true_eq]
          omega
        rw [List.takeWhile_cons_of_neg (by simpa using hitem),
          List.filter_cons_of_neg (by simpa using hitem), List.filter_eq_nil_iff.mpr hnone]

theorem rel_of_getLast?_eq_some {rel : α → α → Prop} (hsorted : items.Pairwise rel)
    (hlast : items.getLast? = some item) (hself : rel item item) {other : α}
    (hother : other ∈ items) : rel other item := by
  rw [List.getLast?_eq_some_getLast (List.ne_nil_of_mem hother)] at hlast
  obtain rfl := Option.some.inj hlast
  exact hsorted.rel_getLast_of_rel_getLast_getLast hother hself

end Sorted

namespace AddressSpace

open Segment

variable {space : AddressSpace} {segment : Segment} {segments : List Segment}
  {address offset : Int}

/-- Segments stand in the order of their addresses. -/
def Ascending (segments : List Segment) : Prop :=
  segments.Pairwise fun first later => first.virtualAddress ≤ later.virtualAddress

/-- Segments stand in the order of their offsets. -/
def FileOrdered (segments : List Segment) : Prop :=
  segments.Pairwise fun first later => first.fileOffset ≤ later.fileOffset

theorem ascending_ofSegments (segments : List Segment) :
    Ascending (ofSegments segments).byAddress :=
  pairwise_mergeSort_key Segment.virtualAddress segments

theorem fileOrdered_ofSegments (segments : List Segment) :
    FileOrdered (ofSegments segments).byOffset :=
  pairwise_mergeSort_key Segment.fileOffset _

theorem mem_byOffset_ofSegments :
    segment ∈ (ofSegments segments).byOffset ↔
      segment ∈ segments ∧ segment.isFileBacked = true := by
  simp [ofSegments]

section Addresses

theorem lastFrom?_eq (hsorted : Ascending space.byAddress) (address : Int) :
    space.lastFrom? address =
      (space.byAddress.filter fun segment => decide (segment.virtualAddress ≤ address)).getLast? :=
  congrArg List.getLast? (takeWhile_eq_filter hsorted address)

theorem le_of_lastFrom? (hsorted : Ascending space.byAddress)
    (hlast : space.lastFrom? address = some segment) {other : Segment}
    (hother : other ∈ space.byAddress) (hle : other.virtualAddress ≤ address) :
    other.virtualAddress ≤ segment.virtualAddress := by
  rw [lastFrom?_eq hsorted] at hlast
  apply rel_of_getLast?_eq_some (hsorted.filter _) hlast le_rfl
  simpa using ⟨hother, hle⟩

theorem exists_lastFrom? (hsorted : Ascending space.byAddress) (hmem : segment ∈ space.byAddress)
    (hle : segment.virtualAddress ≤ address) :
    ∃ last ∈ space.byAddress, space.lastFrom? address = some last ∧
      last.virtualAddress ≤ address := by
  rw [lastFrom?_eq hsorted]
  cases hlast : (space.byAddress.filter fun segment =>
      decide (segment.virtualAddress ≤ address)).getLast? with
  | none =>
      have hnone := List.filter_eq_nil_iff.mp (List.getLast?_eq_none_iff.mp hlast) segment hmem
      exact absurd hle (by simpa using hnone)
  | some last =>
      obtain ⟨hlast_mem, hlast_le⟩ := List.mem_filter.mp (List.mem_of_getLast? hlast)
      exact ⟨last, hlast_mem, rfl, by simpa using hlast_le⟩

theorem segmentAt?_eq_some_iff (hsorted : Ascending space.byAddress)
    (hpos : ∀ s ∈ space.byAddress, 0 < s.virtualSize)
    (hapart : space.byAddress.Pairwise fun s t => Disjoint s.addresses t.addresses) :
    space.segmentAt? address = some segment ↔
      segment ∈ space.byAddress ∧ segment.contains address = true := by
  constructor
  · intro hat
    exact ⟨mem_of_segmentAt? hat, contains_of_segmentAt? hat⟩
  · rintro ⟨hmem, hcontains⟩
    obtain ⟨hstart, hstop⟩ := contains_iff.mp hcontains
    obtain ⟨last, hlast_mem, hlast, hlast_start⟩ := exists_lastFrom? hsorted hmem hstart
    -- The last segment starts inside of the one that contains the address, so they are the same.
    have hle := le_of_lastFrom? hsorted hlast hmem hstart
    have hown : last.virtualAddress ∈ last.addresses := by
      have hsize := hpos last hlast_mem
      rw [mem_addresses_iff, contains_iff, stop]
      omega
    have hinside : last.virtualAddress ∈ segment.addresses := by
      rw [mem_addresses_iff, contains_iff]
      omega
    obtain rfl := eq_of_mem_of_apart hapart hlast_mem hmem hown hinside
    simpa [segmentAt?, hlast, Option.filter] using hcontains

end Addresses

section Offsets

theorem address?_eq (hordered : FileOrdered space.byOffset) (offset : Int) :
    space.address? offset =
      ((space.byOffset.filter fun segment => decide (segment.fileOffset ≤ offset)).reverse.find?
        fun segment => decide (offset - segment.fileOffset < segment.fileSize)).map
          (·.addressOf offset) := by
  rw [address?, takeWhile_eq_filter hordered]
  rfl

theorem address?_eq_none_iff (hordered : FileOrdered space.byOffset) :
    space.address? offset = none ↔ ∀ segment ∈ space.byOffset, offset ∉ segment.offsets := by
  rw [address?_eq hordered, Option.map_eq_none_iff, List.find?_eq_none]
  simp only [List.mem_reverse, List.mem_filter, decide_eq_true_eq, and_imp, offsets, Set.mem_Ico,
    not_and]
  refine forall₂_congr fun segment _ => forall_congr' fun _ => ?_
  omega

theorem exists_of_address? (hordered : FileOrdered space.byOffset)
    (h : space.address? offset = some address) :
    ∃ segment ∈ space.byOffset, offset ∈ segment.offsets ∧ segment.addressOf offset = address ∧
      ∀ other ∈ space.byOffset, offset ∈ other.offsets → other.fileOffset ≤ segment.fileOffset := by
  rw [address?_eq hordered] at h
  obtain ⟨segment, hfound, haddress⟩ := Option.map_eq_some_iff.mp h
  obtain ⟨hholds, passed, rest, hsplit, hpassed⟩ := List.find?_eq_some_iff_append.mp hfound
  have hdescending := List.pairwise_reverse.mpr (hordered.filter fun segment =>
    decide (segment.fileOffset ≤ offset))
  have hmem := List.mem_of_find?_eq_some hfound
  rw [hsplit, List.pairwise_append, List.pairwise_cons] at hdescending
  simp only [List.mem_reverse, List.mem_filter, decide_eq_true_eq] at hmem hholds
  refine ⟨segment, hmem.1, ⟨hmem.2, by omega⟩, haddress, fun other hother hoffset => ?_⟩
  have hcandidate : other ∈ passed ++ segment :: rest := by
    rw [← hsplit]
    simpa using ⟨hother, hoffset.1⟩
  rcases List.mem_append.mp hcandidate with hmem | hmem
  · have hnot := hpassed other hmem
    have hstop := hoffset.2
    simp only [Bool.not_eq_true', decide_eq_false_iff_not] at hnot
    omega
  · rcases List.mem_cons.mp hmem with rfl | hmem
    · exact le_refl _
    · exact hdescending.2.1.1 other hmem

end Offsets

/-- Each segment takes up addresses, no fewer than the file fills, and no two of them share one. -/
structure Apart (segments : List Segment) : Prop where
  virtualSize_pos : ∀ segment ∈ segments, 0 < segment.virtualSize
  fileSize_le : ∀ segment ∈ segments, segment.fileSize ≤ segment.virtualSize
  addresses : segments.Pairwise fun first later => Disjoint first.addresses later.addresses

section Translation

theorem segmentAt?_ofSegments (h : Apart segments) :
    (ofSegments segments).segmentAt? address = some segment ↔
      segment ∈ segments ∧ address ∈ segment.addresses := by
  have hpos : ∀ s ∈ (ofSegments segments).byAddress, 0 < s.virtualSize := fun s hs =>
    h.virtualSize_pos s (mem_ofSegments.mp hs)
  have hperm : (ofSegments segments).byAddress.Perm segments := List.mergeSort_perm _ _
  have hapart := (hperm.pairwise_iff fun hdisjoint => hdisjoint.symm).mpr h.addresses
  rw [segmentAt?_eq_some_iff (ascending_ofSegments segments) hpos hapart, mem_ofSegments,
    mem_addresses_iff]

/-- The segment at an address is the one that a search through all segments finds. -/
theorem segmentAt?_eq_find? (h : Apart segments) (address : Int) :
    (ofSegments segments).segmentAt? address = segments.find? (·.contains address) := by
  apply Option.ext
  intro segment
  rw [segmentAt?_ofSegments h, mem_addresses_iff]
  constructor
  · rintro ⟨hmem, hcontains⟩
    cases hfound : segments.find? (·.contains address) with
    | none => exact absurd hcontains (by simpa using List.find?_eq_none.mp hfound segment hmem)
    | some found =>
        have hmem' := List.mem_of_find?_eq_some hfound
        have hcontains' := List.find?_some hfound
        rw [eq_of_mem_of_apart h.addresses hmem' hmem (mem_addresses_iff.mpr hcontains')
          (mem_addresses_iff.mpr hcontains)]
  · intro hfound
    exact ⟨List.mem_of_find?_eq_some hfound, by simpa using List.find?_some hfound⟩

theorem fileOffset?_eq_some_iff (h : Apart segments) :
    (ofSegments segments).fileOffset? address = some offset ↔
      ∃ segment ∈ segments, offset ∈ segment.offsets ∧ segment.addressOf offset = address := by
  constructor
  · intro hoffset
    unfold fileOffset? at hoffset
    split at hoffset
    · cases hoffset
    · next segment hat =>
        obtain ⟨hmem, hstart, -⟩ := (segmentAt?_ofSegments h).mp hat
        split at hoffset
        · cases hoffset
        · next hstop =>
            obtain rfl := Option.some.inj hoffset
            rw [fileStop] at hstop
            refine ⟨segment, hmem, ⟨?_, ?_⟩, ?_⟩
            · omega
            · omega
            · rw [addressOf]
              omega
  · rintro ⟨segment, hmem, hoffset, rfl⟩
    obtain ⟨haddress, hstop⟩ := addressOf_mem_addresses (h.fileSize_le segment hmem) hoffset
    have hat := (segmentAt?_ofSegments h).mpr ⟨hmem, haddress⟩
    simp only [fileOffset?, hat]
    rw [if_neg hstop.not_ge, addressOf]
    congr 1
    omega

theorem address?_ofSegments_eq_none_iff (segments : List Segment) (offset : Int) :
    (ofSegments segments).address? offset = none ↔
      ∀ segment ∈ segments, offset ∉ segment.offsets := by
  rw [address?_eq_none_iff (fileOrdered_ofSegments segments)]
  simp only [mem_byOffset_ofSegments, and_imp]
  constructor
  · intro hnone segment hmem hoffset
    exact hnone segment hmem (isFileBacked_of_mem_offsets hoffset) hoffset
  · intro hnone segment hmem _
    exact hnone segment hmem

theorem exists_of_address?_ofSegments
    (haddress : (ofSegments segments).address? offset = some address) :
    ∃ segment ∈ segments, offset ∈ segment.offsets ∧ segment.addressOf offset = address ∧
      ∀ other ∈ segments, offset ∈ other.offsets → other.fileOffset ≤ segment.fileOffset := by
  obtain ⟨segment, hmem, hoffset, hsame, hhighest⟩ :=
    exists_of_address? (fileOrdered_ofSegments segments) haddress
  refine ⟨segment, (mem_byOffset_ofSegments.mp hmem).1, hoffset, hsame, fun other hother h => ?_⟩
  exact hhighest other (mem_byOffset_ofSegments.mpr ⟨hother, isFileBacked_of_mem_offsets h⟩) h

theorem fileOffset?_of_address? (h : Apart segments)
    (haddress : (ofSegments segments).address? offset = some address) :
    (ofSegments segments).fileOffset? address = some offset := by
  obtain ⟨segment, hmem, hoffset, hsame, -⟩ := exists_of_address?_ofSegments haddress
  exact (fileOffset?_eq_some_iff h).mpr ⟨segment, hmem, hoffset, hsame⟩

theorem address?_of_fileOffset? (h : Apart segments)
    (hfiles : segments.Pairwise fun first later => Disjoint first.offsets later.offsets)
    (hoffset : (ofSegments segments).fileOffset? address = some offset) :
    (ofSegments segments).address? offset = some address := by
  obtain ⟨segment, hmem, hholds, rfl⟩ := (fileOffset?_eq_some_iff h).mp hoffset
  cases hfound : (ofSegments segments).address? offset with
  | none =>
      have hnone := (address?_ofSegments_eq_none_iff segments offset).mp hfound
      exact absurd hholds (hnone segment hmem)
  | some found =>
      obtain ⟨other, hother, hholds', rfl, -⟩ := exists_of_address?_ofSegments hfound
      rw [eq_of_mem_of_apart hfiles hother hmem hholds' hholds]

end Translation

/-- Addresses and offsets are translated as a search through all segments would do it, and back to
what they were: an offset with an address always, an address with an offset if no two segments are
filled from the same offsets. -/
theorem translation_of_apart (h : Apart segments) :
    (∀ address, (ofSegments segments).segmentAt? address = segments.find? (·.contains address)) ∧
      (∀ address segment, (ofSegments segments).segmentAt? address = some segment ↔
        segment ∈ segments ∧ address ∈ segment.addresses) ∧
      (∀ offset, (ofSegments segments).address? offset = none ↔
        ∀ segment ∈ segments, offset ∉ segment.offsets) ∧
      (∀ offset address, (ofSegments segments).address? offset = some address →
        (ofSegments segments).fileOffset? address = some offset ∧
          ∃ segment ∈ segments, offset ∈ segment.offsets ∧ segment.addressOf offset = address ∧
            ∀ other ∈ segments, offset ∈ other.offsets →
              other.fileOffset ≤ segment.fileOffset) ∧
      (segments.Pairwise (fun first later => Disjoint first.offsets later.offsets) →
        ∀ address offset, (ofSegments segments).fileOffset? address = some offset →
          (ofSegments segments).address? offset = some address) := by
  refine ⟨segmentAt?_eq_find? h, fun _ _ => segmentAt?_ofSegments h,
    address?_ofSegments_eq_none_iff segments, fun offset address haddress => ?_,
    fun hfiles address offset => address?_of_fileOffset? h hfiles⟩
  exact ⟨fileOffset?_of_address? h haddress, exists_of_address?_ofSegments haddress⟩

/-- Segments in the order of a file, which maps its first bytes twice: on their own, and as a part
of the code. The memory of the last segment starts lowest, and half of it is not filled. -/
def sharedSegments : List Segment :=
  [⟨"code", 0, 0x1000, 0x5000, 0x1000, ⟨true, false, true⟩⟩,
    ⟨"header", 0, 0x200, 0x4000, 0x200, ⟨true, false, false⟩⟩,
    ⟨"data", 0x1000, 0x100, 0x2000, 0x200, ⟨true, true, false⟩⟩]

theorem translation_sharedSegments :
    (ofSegments sharedSegments).address? 0x180 = some 0x4180 ∧
      (ofSegments sharedSegments).fileOffset? 0x4180 = some 0x180 ∧
        (ofSegments sharedSegments.tail).address? 0x1080 = some 0x2080 := by
  have hapart : Apart sharedSegments := by
    refine ⟨by decide, by decide, ?_⟩
    simp [sharedSegments, addresses, Set.Ico_disjoint_Ico, stop]
  have hapart_tail : Apart sharedSegments.tail := by
    refine ⟨by decide, by decide, ?_⟩
    simp [sharedSegments, addresses, Set.Ico_disjoint_Ico, stop]
  have hfiles : sharedSegments.tail.Pairwise fun first later =>
      Disjoint first.offsets later.offsets := by
    simp [sharedSegments, offsets, Set.Ico_disjoint_Ico]
  have haddress : (ofSegments sharedSegments).address? 0x180 = some 0x4180 := by cbv
  have hoffset : (ofSegments sharedSegments.tail).fileOffset? 0x2080 = some 0x1080 := by cbv
  obtain ⟨-, -, -, hback, -⟩ := translation_of_apart hapart
  obtain ⟨-, -, -, -, hforth⟩ := translation_of_apart hapart_tail
  exact ⟨haddress, (hback _ _ haddress).1, hforth hfiles _ _ hoffset⟩

end AddressSpace

end TypeAtlas
