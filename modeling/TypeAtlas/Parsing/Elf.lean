import TypeAtlas.Image.Declaration
import TypeAtlas.Bytes

namespace TypeAtlas.Elf

open Bytes

/-- The header of a file with what it says about its sections. -/
structure FileHeader extends Header where
  sectionOffset : Nat
  sectionSize : Nat
  sectionCount : Nat
  /-- The section that holds the names of sections. -/
  nameSection : Nat

/-- The message for a byte that is neither 1 nor 2. A missing byte is shown as no byte. -/
def invalidByte (what : String) (data : ByteArray) (place : Nat) : HeaderError :=
  .invalid ("Invalid " ++ what ++ " " ++
    String.ofList (Text.quotedBytes (slice data place 1).toList))

/-- The width of words that the class of a file tells. -/
def wordWidth (data : ByteArray) : Except HeaderError PointerWidth :=
  if byteAt data 4 = 1 then .ok .bits32
  else if byteAt data 4 = 2 then .ok .bits64
  else .error (invalidByte "EI_CLASS" data 4)

/-- The order of the bytes of a word. -/
def byteOrder (data : ByteArray) : Except HeaderError ByteOrder :=
  if byteAt data 5 = 1 then .ok .little
  else if byteAt data 5 = 2 then .ok .big
  else .error (invalidByte "EI_DATA" data 5)

/-- The size of the header by the width of words. -/
def headerSize (width : PointerWidth) : Nat := 40 + 3 * width.bytes

/-- The header in the bytes of a file. -/
def FileHeader.ofBytes (data : ByteArray) (width : PointerWidth) (order : ByteOrder) :
    FileHeader :=
  let word := width.bytes
  let half (row : Nat) : Nat := number order data (30 + 3 * word + 2 * row) 2
  { width
    isLittleEndian := order == .little
    machine := number order data 18 2
    programOffset := number order data (24 + word) word
    programSize := half 0
    programCount := half 1
    sectionOffset := number order data (24 + 2 * word) word
    sectionSize := half 2
    sectionCount := half 3
    nameSection := half 4 }

/-- The header of a file, if the file starts with a whole one. -/
def FileHeader.read (data : ByteArray) : Except HeaderError FileHeader := do
  let width ← wordWidth data
  let order ← byteOrder data
  if data.size < headerSize width then throw .cutShort
  return FileHeader.ofBytes data width order

/-- The program header whose row stands at a place. -/
def Program.read (data : ByteArray) (width : PointerWidth) (place : Nat) : Program :=
  let word := width.bytes
  let field (row : Nat) : Nat := littleEndian data (place + row * word) word
  { kind := littleEndian data place 4
    flags := littleEndian data (place + match width with | .bits32 => 24 | .bits64 => 4) 4
    offset := field 1
    virtualAddress := field 2
    fileSize := field 4
    memorySize := field 5 }

/-- The rows of the table of program headers. -/
def FileHeader.programs (header : FileHeader) (data : ByteArray) : List Program :=
  (List.range header.programCount).map fun row =>
    Program.read data header.width (header.programOffset + row * header.programSize)

/-- The kind of program header for the tags of the dynamic linker. -/
def dynamicKind : Nat := 2

/-- A section header. -/
structure Section where
  /-- The place of the name among the names of sections. -/
  name : Nat
  kind : Nat
  offset : Nat
  size : Nat
  link : Nat
  entrySize : Nat

def stringKind : Nat := 3

def sectionHeaderSize (width : PointerWidth) : Nat := 16 + 6 * width.bytes

def Section.read (data : ByteArray) (width : PointerWidth) (place : Nat) : Section :=
  let word := width.bytes
  { name := littleEndian data place 4
    kind := littleEndian data (place + 4) 4
    offset := littleEndian data (place + 8 + 2 * word) word
    size := littleEndian data (place + 8 + 3 * word) word
    link := littleEndian data (place + 8 + 4 * word) 4
    entrySize := littleEndian data (place + 16 + 5 * word) word }

/-- Whether a section holds symbols, all of them or those for the dynamic linker. -/
def Section.isSymbolTable (part : Section) : Bool :=
  part.kind == 2 || part.kind == 11

/-- The section with an index, if its header lies in the file. -/
def FileHeader.sectionAt? (header : FileHeader) (data : ByteArray) (index : Nat) : Option Section :=
  let place := header.sectionOffset + index * header.sectionSize
  let size := sectionHeaderSize header.width
  if size ≤ header.sectionSize ∧ place + size ≤ data.size then
    some (Section.read data header.width place)
  else none

/-- The number of section headers. A count that does not fit the header stands in the first
section header as its size. -/
def FileHeader.sectionTotal? (header : FileHeader) (data : ByteArray) : Option Nat :=
  if header.sectionOffset = 0 then some 0
  else if header.sectionCount = 0 then (header.sectionAt? data 0).map Section.size
  else some header.sectionCount

/-- The section with the names of sections. An index that does not fit the header stands in the
first section header as its link. -/
def FileHeader.names? (header : FileHeader) (data : ByteArray) : Option Section :=
  if header.nameSection = 0xFFFF then
    (header.sectionAt? data 0).bind fun first => header.sectionAt? data first.link
  else header.sectionAt? data header.nameSection

/-- One more than the greatest place in a file. -/
def placeBound : Nat := 0x8000000000000000

/-- The string at a place of a table of strings. One that does not end in the file is empty, and
none is at a place that no file has. -/
def stringAt? (data : ByteArray) (place : Nat) : Option String :=
  if place < placeBound then some ((Name.text? data place).getD "") else none

/-- The table of strings that a table of symbols refers to. -/
def FileHeader.linkedStrings? (header : FileHeader) (data : ByteArray) (part : Section) :
    Option Section :=
  (header.sectionAt? data part.link).filter fun strings => strings.kind == stringKind

/-- Whether a section has a name and, if it holds symbols, rows and a table of strings. -/
def FileHeader.isWhole (header : FileHeader) (data : ByteArray) (names part : Section) : Bool :=
  (stringAt? data (names.offset + part.name)).isSome &&
    (!part.isSymbolTable ||
      (header.linkedStrings? data part).isSome && part.entrySize != 0 &&
        part.size % part.entrySize == 0)

def FileHeader.sectionsFrom? (header : FileHeader) (data : ByteArray) (index : Nat) :
    (count : Nat) → Option (List Section)
  | 0 => some []
  | count + 1 => do
      let names ← header.names? data
      let part ← header.sectionAt? data index
      if header.isWhole data names part then
        let rest ← header.sectionsFrom? data (index + 1) count
        some (part :: rest)
      else none

/-- The sections of a file, if all of them are whole. -/
def FileHeader.sections? (header : FileHeader) (data : ByteArray) : Option (List Section) := do
  let count ← header.sectionTotal? data
  header.sectionsFrom? data 0 count

def symbolSize : PointerWidth → Nat
  | .bits32 => 16
  | .bits64 => 24

/-- The row that stands at a place, with a name from the strings at another place. -/
def entryAt? (data : ByteArray) (width : PointerWidth) (strings place : Nat) : Option Entry :=
  if place + symbolSize width ≤ data.size then
    (stringAt? data (strings + littleEndian data place 4)).map fun name =>
      match width with
      | .bits32 => ⟨name, littleEndian data (place + 4) 4, littleEndian data (place + 14) 2⟩
      | .bits64 => ⟨name, littleEndian data (place + 8) 8, littleEndian data (place + 6) 2⟩
  else none

/-- The rows of a table from a place on, `step` bytes apart. -/
def entriesFrom? (data : ByteArray) (width : PointerWidth) (strings step place : Nat) :
    (count : Nat) → Option (List Entry)
  | 0 => some []
  | count + 1 => do
      let entry ← entryAt? data width strings place
      let rest ← entriesFrom? data width strings step (place + step) count
      some (entry :: rest)

/-- The symbols of a section that is a table of symbols. -/
def FileHeader.sectionEntries? (header : FileHeader) (data : ByteArray) (part : Section) :
    Option (List Entry) := do
  let strings ← header.linkedStrings? data part
  entriesFrom? data header.width strings.offset part.entrySize part.offset
    (part.size / part.entrySize)

/-- A tag of the dynamic linker. -/
structure Tag where
  kind : Nat
  value : Nat

def endTag : Nat := 0

/-- The kind of the tag with the address of the hash table of symbols. -/
def hashTag : Nat := 4

def stringsTag : Nat := 5

def symbolsTag : Nat := 6

def symbolSizeTag : Nat := 11

/-- The tags from a place on, up to and with the one that ends the list, which has to come among
the first `count`. -/
def tagsFrom? (data : ByteArray) (word place : Nat) : (count : Nat) → Option (List Tag)
  | 0 => none
  | count + 1 =>
      let tag : Tag := ⟨littleEndian data place word, littleEndian data (place + word) word⟩
      if data.size < place + 2 * word then none
      else if tag.kind = endTag then some [tag]
      else (tagsFrom? data word (place + 2 * word) count).map (tag :: ·)

/-- The tags of a program header. One without bytes of the file has no tags. -/
def tags? (data : ByteArray) (width : PointerWidth) (program : Program) : Option (List Tag) :=
  if program.fileSize = 0 then some []
  else tagsFrom? data width.bytes program.offset (data.size + 1)

/-- The value of the first tag of some kind. -/
def tagValue? (tags : List Tag) (kind : Nat) : Option Nat :=
  (tags.find? fun tag => tag.kind == kind).map Tag.value

/-- The place in the file of the byte at an address. The address zero is nowhere. -/
def placeOf? (programs : List Program) (address : Nat) : Option Nat :=
  let holding := programs.find? fun program =>
    program.kind == loadKind && decide (program.virtualAddress ≤ address) &&
      decide (address < program.virtualAddress + program.fileSize)
  if address = 0 then none
  else holding.map fun program => address - program.virtualAddress + program.offset

/-- The place in the file of the table that a tag gives the address of. -/
def tablePlace? (programs : List Program) (tags : List Tag) (kind : Nat) : Option Nat :=
  (tagValue? tags kind).bind (placeOf? programs)

/-- The number of symbols in a hash table, whose buckets and chains have to lie in the file. -/
def hashedCount? (data : ByteArray) (place : Nat) : Option Nat :=
  let buckets := littleEndian data place 4
  let chains := littleEndian data (place + 4) 4
  if place + 8 + 4 * (buckets + chains) ≤ data.size then some chains else none

/-- The end of the symbols at an address: the nearest address in a tag, or else the end of the
last program header that holds the symbols. -/
def symbolsEnd? (programs : List Program) (tags : List Tag) (address : Nat) : Option Nat :=
  match ((tags.map Tag.value).filter fun value => decide (address < value)).min? with
  | some nearest => some nearest
  | none =>
      let holding := programs.filter fun program =>
        decide (program.virtualAddress ≤ address) &&
          decide (address ≤ program.virtualAddress + program.fileSize)
      holding.getLast?.map fun program => program.virtualAddress + program.fileSize

/-- The number of symbols that reach up to the next table. -/
def boundedCount? (width : PointerWidth) (programs : List Program) (tags : List Tag) :
    Option Nat := do
  let address ← tagValue? tags symbolsTag
  let _ ← placeOf? programs address
  let _ ← tablePlace? programs tags stringsTag
  let sizes := tags.filter fun tag => tag.kind == symbolSizeTag
  if sizes.all fun tag => tag.value == symbolSize width then
    (symbolsEnd? programs tags address).map fun stop => (stop - address) / symbolSize width
  else none

/-- The number of symbols that the tags of the dynamic linker declare. -/
def symbolCount? (data : ByteArray) (width : PointerWidth) (programs : List Program)
    (tags : List Tag) : Option Nat :=
  match tablePlace? programs tags hashTag with
  | some place => hashedCount? data place
  | none => boundedCount? width programs tags

/-- The rows of the symbols that the tags of a program header declare. -/
def dynamicEntries? (data : ByteArray) (width : PointerWidth) (programs : List Program)
    (program : Program) : Option (List Entry) := do
  let tags ← tags? data width program
  let count ← symbolCount? data width programs tags
  if count = 0 then some []
  else
    let place ← tablePlace? programs tags symbolsTag
    let strings ← tablePlace? programs tags stringsTag
    entriesFrom? data width strings (symbolSize width) place count

/-- The symbols of a file: those of its sections, then those of its dynamic segments. -/
def FileHeader.entries? (header : FileHeader) (data : ByteArray) : Option (List Entry) := do
  let sections ← header.sections? data
  let programs := header.programs data
  let listed ← (sections.filter Section.isSymbolTable).mapM (header.sectionEntries? data)
  let dynamic := programs.filter fun program => program.kind == dynamicKind
  let linked ← dynamic.mapM (dynamicEntries? data header.width programs)
  some (listed.flatten ++ linked.flatten)

/-- The program headers of a file. With tags for the dynamic linker among them, all section headers
have to be whole. -/
def programs? (data : ByteArray) : Option (List Program) := do
  let header ← (FileHeader.read data).toOption
  let programs := header.programs data
  if (programs.any fun program => program.kind == dynamicKind) &&
      (header.sections? data).isNone then none
  else some programs

/-- The symbols of a file: those of its sections, then those of the dynamic linker. -/
def symbols? (data : ByteArray) : Option (List Entry) := do
  let header ← (FileHeader.read data).toOption
  header.entries? data

end TypeAtlas.Elf
