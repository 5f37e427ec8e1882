import TypeAtlas.Bytes
import TypeAtlas.Image.AddressSpace
import TypeAtlas.Image.Declaration
import TypeAtlas.Parsing.Elf

namespace TypeAtlas.Pe

open Bytes

/-- The bytes between the stub and the file header. -/
def signature : List UInt8 := [0x50, 0x45, 0, 0]

/-- The headers in front of the table of sections. -/
structure FileHeader where
  machine : Nat
  sectionCount : Nat
  /-- The place of the optional header. -/
  optional : Nat
  optionalSize : Nat
  magic : Nat

/-- The size of the fixed part of an optional header. -/
def fixedSize (magic : Nat) : Nat :=
  if magic = magic64 then 112 else 96

/-- The headers of a file, if its signature is in place and no header is cut short. -/
def FileHeader.read? (data : ByteArray) : Option FileHeader :=
  let start := littleEndian data 0x3C 4
  let optional := start + 24
  let magic := littleEndian data optional 2
  if (slice data start 4).toList = signature ∧ optional + fixedSize magic ≤ data.size then
    some
      { machine := littleEndian data (start + 4) 2
        sectionCount := littleEndian data (start + 6) 2
        optional
        optionalSize := littleEndian data (start + 20) 2
        magic }
  else none

/-- The address that sections are counted from. -/
def FileHeader.base (header : FileHeader) (data : ByteArray) : Nat :=
  if header.magic = magic64 then littleEndian data (header.optional + 24) 8
  else littleEndian data (header.optional + 28) 4

def sectionSize : Nat := 40

/-- The section whose row stands at a place. -/
def Section.read (data : ByteArray) (place : Nat) : Section where
  name := Name.fixed data place 8
  virtualSize := littleEndian data (place + 8) 4
  virtualAddress := littleEndian data (place + 12) 4
  rawSize := littleEndian data (place + 16) 4
  rawOffset := littleEndian data (place + 20) 4
  characteristics := littleEndian data (place + 36) 4

/-- The sections, up to a row that the file cuts short. -/
def FileHeader.sections (header : FileHeader) (data : ByteArray) : List Section :=
  let table := header.optional + header.optionalSize
  let places := (List.range header.sectionCount).map fun row => table + row * sectionSize
  (places.takeWhile fun place => decide (place + sectionSize ≤ data.size)).map (Section.read data)

/-- What the headers of a file say. -/
def file? (data : ByteArray) : Option File :=
  (FileHeader.read? data).map fun header =>
    { machine := header.machine, magic := header.magic, base := header.base data
      sections := header.sections data }

/-- The place in the file of an address. An address outside of all sections is its own place. -/
def placeOf (sections : List Section) (address : Nat) : Nat :=
  match sections.find? fun row =>
      decide (row.virtualAddress ≤ address) &&
        decide (address < row.virtualAddress + max row.virtualSize row.rawSize) with
  | some row => address - row.virtualAddress + row.rawOffset
  | none => address

/-- The address of the export directory; zero stands for none. -/
def FileHeader.exportDirectory (header : FileHeader) (data : ByteArray) : Nat :=
  let directories := header.optional + fixedSize header.magic
  if littleEndian data (directories - 4) 4 = 0 then 0 else littleEndian data directories 4

/-- The exported names with the places of their addresses in the address table, in the order of
that table. -/
def exportedNames (data : ByteArray) (sections : List Section) (directory : Nat) :
    List (Nat × String) :=
  let names := placeOf sections (littleEndian data (directory + 32) 4)
  let slots := placeOf sections (littleEndian data (directory + 36) 4)
  let count := min (littleEndian data (directory + 24) 4) data.size
  let listed := (List.range count).map fun i =>
    (littleEndian data (slots + 2 * i) 2,
      (Name.text? data (placeOf sections (littleEndian data (names + 4 * i) 4))).getD "")
  listed.mergeSort fun a b => decide (a.1 ≤ b.1)

/-- The exported names of a file with their distances from the base, in the order of their places
in the address table. -/
def exports (data : ByteArray) : List (String × Nat) :=
  match FileHeader.read? data with
  | none => []
  | some header =>
      let sections := header.sections data
      let address := header.exportDirectory data
      if address = 0 then []
      else
        let directory := placeOf sections address
        let addresses := placeOf sections (littleEndian data (directory + 28) 4)
        let count := littleEndian data (directory + 20) 4
        (exportedNames data sections directory).filterMap fun (slot, name) =>
          if slot < count then some (name, littleEndian data (addresses + 4 * slot) 4) else none

end TypeAtlas.Pe

namespace TypeAtlas.MachO

open Bytes

/-- The bytes of a Mach-O file, with its place in the file that holds it and its header. -/
structure Part where
  data : ByteArray
  offset : Nat
  order : ByteOrder
  width : PointerWidth
  cpuType : Int
  commandCount : Nat
  commandsSize : Nat

/-- The first word of a file whose words have a width. -/
def magic : PointerWidth → Nat
  | .bits32 => Container.machOMagic32
  | .bits64 => Container.machOMagic64

/-- The byte orders and widths that the first word of a file may tell. -/
def wordForms : List (ByteOrder × PointerWidth) :=
  [(.little, .bits32), (.little, .bits64), (.big, .bits32), (.big, .bits64)]

/-- The byte order and the width that the first word of a file tells. -/
def wordForm? (data : ByteArray) : Option (ByteOrder × PointerWidth) :=
  wordForms.find? fun (order, width) => number order data 0 4 == magic width

/-- The Mach-O file in some bytes, if they start with a whole header. -/
def Part.read? (data : ByteArray) (offset : Nat) : Option Part :=
  match wordForm? data with
  | none => none
  | some (order, width) =>
      if headerSize width ≤ data.size then
        some
          { data, offset, order, width
            cpuType := toSigned (number order data 4 4) 4
            commandCount := number order data 16 4
            commandsSize := number order data 20 4 }
      else none

/-- The slice with a range in a bundle, which has to be a part of the file. -/
def partAt? (data : ByteArray) (offset size : Nat) : Option Part :=
  if size ≠ 0 ∧ offset + size ≤ data.size then Part.read? (slice data offset size) offset
  else none

/-- The most slices of a bundle that are read. Of a bundle with more none is. -/
def mostSlicesRead : Nat := 30

def sliceEntrySize : Nat := 20

/-- The slices of a bundle in the order of the file. What is no Mach-O file is left out. -/
def bundledParts (data : ByteArray) : List Part :=
  if mostSlicesRead < sliceCount data then []
  else
    let places := (List.range (sliceCount data)).map fun row => 8 + row * sliceEntrySize
    let entries := places.takeWhile fun place => decide (place + sliceEntrySize ≤ data.size)
    entries.filterMap fun place =>
      partAt? data (bigEndian data (place + 8) 4) (bigEndian data (place + 12) 4)

/-- The slices of a file. A file that is no bundle is one slice. -/
def parts (data : ByteArray) : List Part :=
  if Container.isBundle data then bundledParts data else (Part.read? data 0).toList

namespace Part

/-- The number that `width` bytes of a slice write in its byte order. -/
def number (part : Part) (place width : Nat) : Nat :=
  Bytes.number part.order part.data place width

/-- The most load commands that are read. -/
def maxCommands : Nat := 0xFFFF

/-- The size of the part that all load commands have: their kind and their size. -/
def commandHeadSize : Nat := 8

/-- The places of load commands, each of which says how far the next one is. A command that the
slice cuts short, or whose size does not cover its own head, ends the list. -/
def commandPlaces (part : Part) (place : Nat) : (count : Nat) → List Nat
  | 0 => []
  | count + 1 =>
      let size := part.number (place + 4) 4
      if place + commandHeadSize ≤ part.data.size ∧ commandHeadSize ≤ size then
        place :: commandPlaces part (place + size) count
      else []

/-- The places of the load commands of a file, whose range has to lie in it. -/
def commands (part : Part) : List Nat :=
  let start := headerSize part.width
  if start + part.commandsSize ≤ part.data.size then
    part.commandPlaces start (min part.commandCount maxCommands)
  else []

/-- Whether a command declares a segment, by its kind. -/
def isSegmentCommand (kind : Nat) : Bool :=
  kind == 0x1 || kind == 0x19

/-- The size of the fixed part of a command that declares a segment. -/
def segmentSize : PointerWidth → Nat
  | .bits32 => 56
  | .bits64 => 72

/-- The command at a place, if it declares a segment. The layout follows the width of the file. -/
def commandAt? (part : Part) (place : Nat) : Option Command :=
  let word := part.width.bytes
  let field (row : Nat) : Nat := part.number (place + 24 + row * word) word
  if isSegmentCommand (part.number place 4) = true ∧
      place + segmentSize part.width ≤ part.data.size then
    some
      { name := Name.fixed part.data (place + 8) 16
        virtualAddress := field 0
        virtualSize := field 1
        fileOffset := field 2
        fileSize := field 3
        protection := part.number (place + 24 + 4 * word + 4) 4 }
  else none

/-- The commands of a file that declare segments. -/
def segmentCommands (part : Part) : List Command :=
  part.commands.filterMap part.commandAt?

/-- The kind of the load command that declares the symbols. -/
def symbolCommand : Nat := 0x2

/-- The size of a load command that declares the symbols. -/
def symbolCommandSize : Nat := 24

/-- The size of a row of a table of symbols. -/
def symbolSize : PointerWidth → Nat
  | .bits32 => 12
  | .bits64 => 16

/-- The segment whose bytes hold a place of a file: of those with bytes the last one to start at
or below it, if it reaches that far. -/
def segmentOver? (part : Part) (place : Nat) : Option Command :=
  let backed := part.segmentCommands.filter fun command => command.fileSize != 0
  let sorted := backed.mergeSort fun a b => decide (a.fileOffset ≤ b.fileOffset)
  let starting := sorted.takeWhile fun command => decide (command.fileOffset ≤ place)
  starting.getLast?.filter fun command =>
    decide (place < command.fileOffset + command.fileSize)

/-- Whether a range lies in the bytes of one segment, which have to be a part of the file. -/
def holds (part : Part) (place size : Nat) : Bool :=
  (part.segmentOver? place).any fun command =>
    decide (command.fileOffset + command.fileSize ≤ part.data.size) &&
      decide (place + size ≤ command.fileOffset + command.fileSize)

/-- The bytes of the name at a place of a table of names, which has to end in the table. The place
zero stands for no name. -/
def nameBytes (part : Part) (names namesSize start : Nat) : List UInt8 :=
  if start = 0 then []
  else ((Bytes.cString? part.data (names + start) (namesSize - start)).map ByteArray.toList).getD []

/-- The row of a table of symbols that stands at a place. -/
def entryAt (part : Part) (names namesSize place : Nat) : Entry where
  name := Text.decode? (part.nameBytes names namesSize (part.number place 4))
  value := part.number (place + 8) part.width.bytes

/-- The symbols that the command at a place declares. Their table and that of their names have to
lie in the bytes of a segment each. -/
def entriesAt (part : Part) (command : Nat) : List Entry :=
  let field (row : Nat) : Nat := part.number (command + 8 + 4 * row) 4
  let size := symbolSize part.width
  if command + symbolCommandSize ≤ part.data.size ∧ part.holds (field 0) (field 1 * size) = true ∧
      part.holds (field 2) (field 3) = true then
    (List.range (field 1)).map fun row => part.entryAt (field 2) (field 3) (field 0 + row * size)
  else []

/-- The symbols of a file. -/
def entries (part : Part) : List Entry :=
  let commands := part.commands.filter fun place => part.number place 4 == symbolCommand
  commands.flatMap part.entriesAt

/-- What is found in a Mach-O file. -/
def slice (part : Part) : Slice where
  offset := part.offset
  cpuType := part.cpuType
  width := part.width
  commands := part.segmentCommands
  symbols := part.entries

end Part

/-- The slices of a file in its order. -/
def slices (data : ByteArray) : List Slice := (parts data).map Part.slice

end TypeAtlas.MachO

namespace TypeAtlas

/-- Parsers of the three formats. Of a bundle they parse the first slice, when one is asked for. -/
def formatParsers : Parsers where
  elfHeader data := (Elf.FileHeader.read data).map Elf.FileHeader.toHeader
  elfPrograms := Elf.programs?
  elfSymbols := Elf.symbols?
  peFile := Pe.file?
  peExports := Pe.exports
  slices data := some (MachO.slices data)
  anySlice data := (MachO.slices data).head?

end TypeAtlas
