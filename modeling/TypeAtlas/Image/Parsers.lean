import TypeAtlas.Image.Basic

namespace TypeAtlas

namespace Elf

/-- What the header of an ELF file says about its program headers. -/
structure Header where
  width : PointerWidth
  isLittleEndian : Bool
  machine : Nat
  programOffset : Nat
  programSize : Nat
  programCount : Nat

/-- Why the header of an ELF file cannot be parsed. -/
inductive HeaderError
  /-- The file ends inside of the header. -/
  | cutShort
  | invalid (message : String)

/-- A program header. -/
structure Program where
  kind : Nat
  flags : Nat
  offset : Nat
  virtualAddress : Nat
  fileSize : Nat
  memorySize : Nat

/-- A row of a table of symbols. -/
structure Entry where
  name : String
  value : Nat
  /-- The section that defines the symbol; zero stands for none. -/
  home : Nat

end Elf

namespace Pe

/-- A row of the table of sections. Addresses are counted from the base. -/
structure Section where
  name : String
  virtualSize : Nat
  virtualAddress : Nat
  rawSize : Nat
  rawOffset : Nat
  characteristics : Nat

/-- What the headers of a PE file say. -/
structure File where
  machine : Nat
  /-- The kind word of the optional header, which tells the width of addresses. -/
  magic : Nat
  base : Nat
  sections : List Section

end Pe

namespace MachO

/-- A load command that declares a segment. Its file range is counted from the start of its
slice. -/
structure Command where
  name : String
  virtualAddress : Nat
  virtualSize : Nat
  fileOffset : Nat
  fileSize : Nat
  protection : Nat
  deriving DecidableEq

/-- A row of a table of symbols. Bytes that write no text are no name. -/
structure Entry where
  name : Option String
  value : Nat
  deriving DecidableEq

/-- A Mach-O file, with its place in the file that holds it. -/
structure Slice where
  offset : Nat
  cpuType : Int
  width : PointerWidth
  commands : List Command
  symbols : List Entry
  deriving DecidableEq

end MachO

/-- The parsers of file formats that images are read with. What they find is not checked against
the file, but all numbers that they read in headers are unsigned, apart from the numbers of Mach-O
machines. -/
structure Parsers where
  elfHeader : ByteArray → Except Elf.HeaderError Elf.Header
  /-- The program headers, unless one of the section headers that they need is malformed. -/
  elfPrograms : ByteArray → Option (List Elf.Program)
  /-- The symbols of all tables, unless one of the tables is malformed. -/
  elfSymbols : ByteArray → Option (List Elf.Entry)
  peFile : ByteArray → Option Pe.File
  /-- The exported names, each with its distance from the base. -/
  peExports : ByteArray → List (String × Nat)
  /-- The slices of a bundle in the order of the file. Another file is one slice. -/
  slices : ByteArray → Option (List MachO.Slice)
  /-- The slice that is parsed when one is asked for. -/
  anySlice : ByteArray → Option MachO.Slice

end TypeAtlas
