import TypeAtlas.Bytes
import TypeAtlas.Image.AddressSpace
import TypeAtlas.Image.Basic
import TypeAtlas.Text.Basic

namespace TypeAtlas

/-- The bytes of a file, the address space they are mapped into, and the width of pointers. -/
structure Memory where
  data : ByteArray
  space : AddressSpace
  width : PointerWidth

/-- The memory of an image. -/
def Image.memory (image : Image) : Memory where
  data := image.data
  space := AddressSpace.ofSegments image.segments
  width := image.width

namespace Memory

/-- The longest text that is read, with the zero byte after it. -/
def maxTextSize : Nat := 1024

def outside (address size : Int) (what : String) : Fault :=
  { kind := .addressOutOfBounds
    message := "Read of " ++ toString size ++ " bytes for " ++ what ++ " at " ++
      Hexadecimal.ofInt address ++ " is outside the mapped data"
    table := some what, offset := some address }

/-- The segment that holds some bytes of the file at an address. -/
def segmentFor? (memory : Memory) (address size : Int) : Option Segment :=
  (memory.space.segmentAt? address).filter fun segment =>
    segment.backs address && decide (0 ≤ size) && decide (address + size ≤ segment.fileStop)

/-- The place in the file of an address of a segment. -/
def placeIn (segment : Segment) (address : Int) : Nat :=
  (segment.fileOffset + (address - segment.virtualAddress)).toNat

/-- Reads some bytes, which have to lie in the filled part of one segment. -/
def readBytes (memory : Memory) (address size : Int) (what : String) : Except Fault ByteArray :=
  match memory.segmentFor? address size with
  | some segment => .ok (Bytes.slice memory.data (placeIn segment address) size.toNat)
  | none => .error (outside address size what)

/-- The words that some bytes hold one after the other. -/
def words (data : ByteArray) (width count : Nat) : List Nat :=
  (List.range count).map fun row => Bytes.littleEndian data (row * width) width

/-- The words from an address on, each of a given width. No words are found anywhere. -/
def readWords (memory : Memory) (width : Nat) (address count : Int) (what : String) :
    Except Fault (List Nat) :=
  if count = 0 then .ok []
  else
    (memory.readBytes address (count * width) what).map fun data => words data width count.toNat

/-- Reads some pointers that stand one behind the other. -/
def readPointers (memory : Memory) (address count : Int) (what : String) :
    Except Fault (List Nat) :=
  memory.readWords memory.width.bytes address count what

def readPointer (memory : Memory) (address : Int) (what : String) : Except Fault Nat :=
  (memory.readBytes address memory.width.bytes what).map fun data =>
    Bytes.littleEndian data 0 memory.width.bytes

/-- The signed words of 32 bits from an address on. -/
def readInts (memory : Memory) (address count : Int) (what : String) : Except Fault (List Int) :=
  (memory.readWords 4 address count what).map fun words =>
    words.map fun word : Nat => Bytes.toSigned word 4

/-- The text from an address up to a zero byte, if one follows soon enough in the same segment. -/
def readText (memory : Memory) (address : Int) (what : String) : Except Fault (Option String) :=
  match memory.segmentFor? address 0 with
  | none => .error (outside address 0 what)
  | some segment =>
      let limit := min maxTextSize (segment.fileStop - address).toNat
      .ok ((Bytes.cString? memory.data (placeIn segment address) limit).map fun bytes =>
        Text.decode bytes.toList)

/-- The addresses in a segment at which some bytes stand, each with its distance from the start of
the segment. -/
def findIn (memory : Memory) (needle : List UInt8) (segment : Segment) : List Nat :=
  let start := segment.fileOffset.toNat
  (Bytes.occurrences memory.data needle start (segment.fileOffset + segment.fileSize).toNat).map
    fun place => place - start

/-- The addresses at which some bytes stand, in ascending order. -/
def findBytes (memory : Memory) (needle : List UInt8) : List Int :=
  (memory.space.byAddress.filter Segment.isFileBacked).flatMap fun segment =>
    (memory.findIn needle segment).map fun distance : Nat => segment.virtualAddress + distance

/-- The addresses of the aligned pointers with some bytes, in ascending order. Pointers are aligned
to the start of their segment, which has to be one that a program does not execute. -/
def findAligned (memory : Memory) (needle : List UInt8) : List Int :=
  let searched := memory.space.byAddress.filter fun segment =>
    segment.isFileBacked && !segment.isExecutable
  searched.flatMap fun segment =>
    let aligned := (memory.findIn needle segment).filter fun distance =>
      distance % memory.width.bytes == 0
    aligned.map fun distance : Nat => segment.virtualAddress + distance

/-- The bytes of a pointer, which has to fit its width. -/
def pointerBytes (width : PointerWidth) (value : Int) : Except Fault (List UInt8) :=
  if value < 0 then
    .error { kind := .outOfRange, message := "can't convert negative int to unsigned" }
  else if (Nat.pow 256 width.bytes : Int) ≤ value then
    .error { kind := .outOfRange, message := "int too big to convert" }
  else .ok (Bytes.ofNat value.toNat width.bytes)

/-- The addresses of the aligned pointers with a value, in ascending order. -/
def findPointer (memory : Memory) (value : Int) : Except Fault (List Int) :=
  (pointerBytes memory.width value).map memory.findAligned

end Memory

end TypeAtlas
