/-!
Address spaces: the segments of an image, found by virtual address or by file offset. A virtual
address belongs to the last segment that starts at or below it. File ranges may overlap, so a file
offset belongs to the segment with the highest start among those whose file range holds it.
-/

namespace TypeAtlas

/-- What a program may do with the bytes of a segment. -/
structure Permissions where
  read : Bool
  write : Bool
  execute : Bool
  deriving DecidableEq

/-- The permissions in a set of bits: 1 to read, 2 to write, 4 to execute. -/
def Permissions.ofBits (bits : Nat) : Permissions :=
  ⟨bits.testBit 0, bits.testBit 1, bits.testBit 2⟩

def Permissions.bits (permissions : Permissions) : Nat :=
  permissions.read.toNat + 2 * permissions.write.toNat + 4 * permissions.execute.toNat

theorem Permissions.ofBits_bits (permissions : Permissions) :
    ofBits permissions.bits = permissions := by
  rcases permissions with ⟨read, write, execute⟩
  cases read <;> cases write <;> cases execute <;> rfl

/-- A range of virtual addresses and the range of the file behind it. -/
structure Segment where
  name : String
  fileOffset : Int
  fileSize : Int
  virtualAddress : Int
  virtualSize : Int
  permissions : Permissions
  deriving DecidableEq

namespace Segment

/-- The first address after a segment. -/
def stop (segment : Segment) : Int :=
  segment.virtualAddress + segment.virtualSize

/-- The first address after the part that the file fills. -/
def fileStop (segment : Segment) : Int :=
  segment.virtualAddress + segment.fileSize

/-- Whether a segment takes up an address. -/
def contains (segment : Segment) (address : Int) : Bool :=
  decide (segment.virtualAddress ≤ address) && decide (address < segment.stop)

/-- Whether an address lies in the part that the file fills. -/
def backs (segment : Segment) (address : Int) : Bool :=
  segment.contains address && decide (address < segment.fileStop)

/-- Whether a program may execute the bytes of a segment. -/
def isExecutable (segment : Segment) : Bool :=
  segment.permissions.execute

/-- Whether the file fills a part of a segment. -/
def isFileBacked (segment : Segment) : Bool :=
  segment.fileSize != 0

theorem contains_iff {segment : Segment} {address : Int} :
    segment.contains address = true ↔
      segment.virtualAddress ≤ address ∧ address < segment.stop := by
  simp only [contains, Bool.and_eq_true, decide_eq_true_eq]

end Segment

/-- Segments in the order of their addresses, and those with bytes of the file in the order of
their file offsets. -/
structure AddressSpace where
  byAddress : List Segment
  byOffset : List Segment

namespace AddressSpace

/-- The address space of some segments, given in any order. Equal starts keep their order. -/
def ofSegments (segments : List Segment) : AddressSpace where
  byAddress := segments.mergeSort fun a b => decide (a.virtualAddress ≤ b.virtualAddress)
  byOffset := (segments.filter Segment.isFileBacked).mergeSort fun a b =>
    decide (a.fileOffset ≤ b.fileOffset)

/-- The last segment that starts at or below an address. -/
def lastFrom? (space : AddressSpace) (address : Int) : Option Segment :=
  (space.byAddress.takeWhile fun segment =>
    decide (segment.virtualAddress ≤ address)).getLast?

/-- The segment at an address. -/
def segmentAt? (space : AddressSpace) (address : Int) : Option Segment :=
  (space.lastFrom? address).filter (·.contains address)

/-- Whether an address lies in a segment that a program may execute. -/
def isExecutable (space : AddressSpace) (address : Int) : Bool :=
  (space.segmentAt? address).any Segment.isExecutable

/-- The place in the file of what stands at an address. -/
def fileOffset? (space : AddressSpace) (address : Int) : Option Int :=
  match space.segmentAt? address with
  | none => none
  | some segment =>
      if segment.fileStop ≤ address then none
      else some (segment.fileOffset + (address - segment.virtualAddress))

/-- The address of what stands at a place of the file. -/
def address? (space : AddressSpace) (offset : Int) : Option Int :=
  let starting := space.byOffset.takeWhile fun segment => decide (segment.fileOffset ≤ offset)
  let holding := starting.reverse.find? fun segment =>
    decide (offset - segment.fileOffset < segment.fileSize)
  holding.map fun segment => segment.virtualAddress + (offset - segment.fileOffset)

theorem contains_of_segmentAt? {space : AddressSpace} {address : Int} {segment : Segment}
    (h : space.segmentAt? address = some segment) : segment.contains address = true := by
  unfold segmentAt? at h
  exact (Option.filter_eq_some_iff.mp h).2

theorem mem_of_segmentAt? {space : AddressSpace} {address : Int} {segment : Segment}
    (h : space.segmentAt? address = some segment) : segment ∈ space.byAddress := by
  unfold segmentAt? at h
  have hlast := (Option.filter_eq_some_iff.mp h).1
  exact List.takeWhile_subset _ (List.mem_of_getLast? hlast)

theorem mem_ofSegments {segments : List Segment} {segment : Segment} :
    segment ∈ (ofSegments segments).byAddress ↔ segment ∈ segments := by
  simp [ofSegments]

end AddressSpace

end TypeAtlas
