import TypeAtlas.Image.Parsers
import TypeAtlas.Log

namespace TypeAtlas

namespace Elf

/-- What is reported when a header cannot be parsed. -/
def HeaderError.fault : HeaderError → Fault
  | cutShort =>
      { kind := .truncatedImage, message := "Failed to read ELF header"
        table := some "ELF header" }
  | invalid message =>
      { kind := .unsupportedFormat, message := "Invalid ELF header: " ++ message
        table := some "e_ident" }

/-- The size of a program header by the width of words. -/
def programHeaderSize : PointerWidth → Nat
  | .bits32 => 32
  | .bits64 => 56

/-- Checks the order of bytes, the size of the program headers, and their range. -/
def Header.check (header : Header) (data : ByteArray) : Except Fault Unit := do
  if !header.isLittleEndian then
    throw { kind := .unsupportedFormat, message := "Only little-endian ELF is supported"
            table := some "e_ident" }
  if header.programCount ≠ 0 ∧ header.programSize ≠ programHeaderSize header.width then
    throw { kind := .malformedLayout
            message := "Unexpected program header size " ++ toString header.programSize
            table := some "program headers", offset := some header.programOffset }
  Image.require data header.programOffset (header.programCount * header.programSize : Nat)
    "program headers"

/-- The kind of program header that maps a range of the file. -/
def loadKind : Nat := 1

/-- The permissions in the flags of a program header. -/
def permissions (flags : Nat) : Permissions where
  read := flags.testBit 2
  write := flags.testBit 1
  execute := flags.testBit 0

/-- The machine that a number in the header stands for. -/
def machine (number : Nat) : Machine :=
  if number = 3 then .x86
  else if number = 62 then .x86_64
  else if number = 40 then .arm
  else if number = 183 then .arm64
  else .unknown

/-- The segment of the mapping program header with an index among those. The file may fill a
segment but not exceed it. -/
def segment (index : Nat) (program : Program) : Except Fault Segment :=
  if program.memorySize < program.fileSize then
    .error { kind := .malformedLayout, message := "Segment file size exceeds its memory size"
             table := some "program headers", index := some index
             offset := some program.virtualAddress }
  else
    .ok { name := "LOAD" ++ toString index
          fileOffset := program.offset
          fileSize := program.fileSize
          virtualAddress := program.virtualAddress
          virtualSize := program.memorySize
          permissions := permissions program.flags }

/-- The segments of mapping program headers, the first of which has an index. -/
def segmentsFrom (index : Nat) : List Program → Except Fault (List Segment)
  | [] => .ok []
  | program :: programs => do
      let first ← segment index program
      let rest ← segmentsFrom (index + 1) programs
      return first :: rest

/-- The address at which the start of the file is mapped. -/
def base : List Program → Nat
  | [] => 0
  | program :: _ => program.virtualAddress - program.offset

/-- What the headers of an ELF file declare: one segment for each program header that maps a range
of the file. -/
def declaration (parsers : Parsers) (data : ByteArray) : Except Fault Declaration := do
  let header ← (parsers.elfHeader data).mapError HeaderError.fault
  header.check data
  let some programs := parsers.elfPrograms data
    | throw { kind := .malformedLayout, message := "Failed to read program headers"
              table := some "program headers" }
  let mapped := programs.filter fun program => program.kind == loadKind
  let segments ← segmentsFrom 0 mapped
  return { machine := machine header.machine, width := header.width, base := base mapped, segments }

end Elf

namespace Pe

def stubSize : Nat := 0x40

/-- The kind word of an optional header with addresses of 32 bits. -/
def magic32 : Nat := 0x10B

/-- The kind word of an optional header with addresses of 64 bits. -/
def magic64 : Nat := 0x20B

/-- The width that the kind of an optional header stands for. -/
def File.width? (file : File) : Option PointerWidth :=
  if file.magic = magic32 then some .bits32
  else if file.magic = magic64 then some .bits64
  else none

/-- The extent of a section in memory, for which the size of its bytes stands in. -/
def Section.extent (row : Section) : Nat :=
  if row.virtualSize = 0 then row.rawSize else row.virtualSize

/-- The permissions in the characteristics of a section. Code may be executed. -/
def permissions (characteristics : Nat) : Permissions where
  read := characteristics.testBit 30
  write := characteristics.testBit 31
  execute := characteristics.testBit 29 || characteristics.testBit 5

/-- The segment of a section, whose addresses are counted from a base. -/
def Section.segment (row : Section) (base : Nat) : Segment where
  name := row.name
  fileOffset := row.rawOffset
  fileSize := min row.rawSize row.extent
  virtualAddress := base + row.virtualAddress
  virtualSize := row.extent
  permissions := permissions row.characteristics

/-- The machine that a number in the file header stands for. -/
def machine (number : Nat) : Machine :=
  if number = 0x14C then .x86
  else if number = 0x8664 then .x86_64
  else if number = 0x1C0 ∨ number = 0x1C4 then .arm
  else if number = 0xAA64 then .arm64
  else .unknown

/-- What the headers of a PE file declare: one segment for each section. -/
def declaration (parsers : Parsers) (data : ByteArray) : Except Fault Declaration := do
  Image.require data 0 stubSize "DOS header"
  let some file := parsers.peFile data
    | throw { kind := .unsupportedFormat, message := "Failed to parse PE image"
              table := some "PE header" }
  let some width := file.width?
    | throw { kind := .unsupportedFormat
              message := "Unknown optional header magic " ++ Hexadecimal.ofNat file.magic
              table := some "optional header" }
  return { machine := machine file.machine, width, base := file.base
           segments := file.sections.map (·.segment file.base) }

end Pe

namespace MachO

open Bytes

/-- The most slices of a bundle. Other formats share its first word and count far more. -/
def maxSlices : Nat := 0x20

/-- The number of slices that a bundle declares. -/
def sliceCount (data : ByteArray) : Nat := bigEndian data 4 4

/-- The size of the header by the width of words. -/
def headerSize : PointerWidth → Nat
  | .bits32 => 28
  | .bits64 => 32

/-- The width that the first word of a file tells that is no bundle. -/
def leadingWidth (data : ByteArray) : PointerWidth :=
  if littleEndian data 0 4 = Container.machOMagic64 then .bits64 else .bits32

/-- Checks that the first header of a file is whole, and the number of slices of a bundle. -/
def checkHeader (data : ByteArray) : Except Fault Unit := do
  Image.require data 0 8 "Mach-O header"
  if Container.isBundle data then
    if sliceCount data = 0 ∨ maxSlices < sliceCount data then
      throw { kind := .unsupportedFormat, message := "Invalid number of fat slices"
              table := some "fat header" }
  else
    Image.require data 0 (headerSize (leadingWidth data)) "Mach-O header"

/-- The number of the machine whose slice is preferred. -/
def preferredMachine : Int := 0x0100000C

/-- The number that stands for any machine. -/
def anyMachine : Int := -1

/-- The form in which the number of a machine is shown. A negative one is shown as the number of 64
bits with the same bits, unless it stands for any machine. -/
def shownMachine (number : Int) : String :=
  if number < 0 ∧ number ≠ anyMachine then Hexadecimal.ofInt (0x10000000000000000 + number)
  else Hexadecimal.ofInt number

/-- The machine that a number in the header stands for. -/
def machine (number : Int) : Machine :=
  if number = 7 then .x86
  else if number = 0x01000007 then .x86_64
  else if number = 12 then .arm
  else if number = preferredMachine then .arm64
  else .unknown

/-- The slice of a bundle that is selected: the first for the preferred machine, else the first with
words of 64 bits, else the first. -/
def select? (slices : List Slice) : Option Slice :=
  match slices.find? fun slice => slice.cpuType == preferredMachine with
  | some slice => some slice
  | none =>
      match slices.find? fun slice => slice.width == .bits64 with
      | some slice => some slice
      | none => slices.head?

/-- The name of the segment that keeps the lowest addresses free. -/
def pageZero : String := "__PAGEZERO"

/-- Whether a command declares a segment that takes up addresses. -/
def Command.isPresent (command : Command) : Bool :=
  command.name != pageZero && command.virtualSize != 0

/-- The segment of a command in a slice that starts at a place of the file. A file range is counted
from the start of the file and is at most as large as the memory range. -/
def Command.segment (command : Command) (offset : Nat) : Segment where
  name := command.name
  fileOffset := (offset : Int) + command.fileOffset
  fileSize := min command.fileSize command.virtualSize
  virtualAddress := command.virtualAddress
  virtualSize := command.virtualSize
  permissions := Permissions.ofBits command.protection

/-- The address of the first segment that starts with the bytes at the start of the slice. -/
def Slice.base (slice : Slice) : Nat :=
  let first := slice.commands.find? fun command =>
    command.isPresent && command.fileOffset == 0 && command.fileSize != 0
  (first.map Command.virtualAddress).getD 0

/-- What a slice declares. -/
def Slice.declaration (slice : Slice) : Declaration where
  machine := machine slice.cpuType
  width := slice.width
  base := slice.base
  segments := (slice.commands.filter Command.isPresent).map (·.segment slice.offset)

/-- What the selected slice of a Mach-O file declares. -/
def declaration (parsers : Parsers) (data : ByteArray) : Logged Declaration := do
  Logged.ofExcept (checkHeader data)
  let some slices := parsers.slices data
    | throw { kind := .unsupportedFormat, message := "Failed to parse Mach-O image"
              table := some "Mach-O header" }
  let some slice := select? slices
    | throw { kind := .unsupportedFormat, message := "No slice in universal binary"
              table := some "fat header" }
  if 1 < slices.length then
    Logged.info ("Select slice of cputype " ++ shownMachine slice.cpuType ++
      " from universal binary.")
  Logged.ofExcept (Image.require data slice.offset 4 "fat slice")
  return slice.declaration

end MachO

/-- What the headers of a file in some format declare. -/
def Container.declaration (container : Container) (parsers : Parsers) (data : ByteArray) :
    Logged Declaration :=
  match container with
  | .elf => Logged.ofExcept (Elf.declaration parsers data)
  | .pe => Logged.ofExcept (Pe.declaration parsers data)
  | .machO => MachO.declaration parsers data

end TypeAtlas
