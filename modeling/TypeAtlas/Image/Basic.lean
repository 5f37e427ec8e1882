import TypeAtlas.Bytes
import TypeAtlas.Fault
import TypeAtlas.Image.AddressSpace

namespace TypeAtlas

/-- The file format of an image. -/
inductive Container
  | elf
  | pe
  | machO
  deriving DecidableEq

namespace Container

def name : Container → String
  | elf => "elf"
  | pe => "pe"
  | machO => "macho"

/-- The first bytes of an ELF file. -/
def elfMagic : List UInt8 := [0x7F, 0x45, 0x4C, 0x46]

/-- The first bytes of a PE file. -/
def peMagic : List UInt8 := [0x4D, 0x5A]

/-- The first word of a Mach-O file with words of 32 bits. -/
def machOMagic32 : Nat := 0xFEEDFACE

/-- The first word of a Mach-O file with words of 64 bits. -/
def machOMagic64 : Nat := 0xFEEDFACF

/-- The first word of a file that bundles several Mach-O files, most significant byte first. -/
def bundleMagic : Nat := 0xCAFEBABE

/-- Whether a file bundles several Mach-O files. -/
def isBundle (data : ByteArray) : Bool :=
  Bytes.bigEndian data 0 4 == bundleMagic

/-- Whether a file is a Mach-O file or a bundle of them. -/
def isMachO (data : ByteArray) : Bool :=
  Bytes.littleEndian data 0 4 == machOMagic32 || Bytes.littleEndian data 0 4 == machOMagic64 ||
    isBundle data

/-- The format of a file, by its first bytes. -/
def detect (data : ByteArray) : Except Fault Container :=
  if (Bytes.slice data 0 4).toList = elfMagic then .ok elf
  else if (Bytes.slice data 0 2).toList = peMagic then .ok pe
  else if 4 ≤ data.size ∧ isMachO data = true then .ok machO
  else
    .error { kind := .unsupportedFormat, message := "Unknown image format"
             table := some "magic", offset := some 0 }

end Container

/-- The machines that are told apart. -/
inductive Machine
  | x86
  | x86_64
  | arm
  | arm64
  | unknown
  deriving DecidableEq

def Machine.name : Machine → String
  | x86 => "x86"
  | x86_64 => "x86_64"
  | arm => "arm"
  | arm64 => "arm64"
  | unknown => "unknown"

/-- How wide the pointers of an image are. -/
inductive PointerWidth
  | bits32
  | bits64
  deriving DecidableEq

def PointerWidth.bytes : PointerWidth → Nat
  | bits32 => 4
  | bits64 => 8

theorem PointerWidth.bytes_pos (width : PointerWidth) : 0 < width.bytes := by
  cases width <;> decide

/-- What the headers of a file declare. -/
structure Declaration where
  machine : Machine
  width : PointerWidth
  /-- The address that the segments are laid out from. -/
  base : Int
  segments : List Segment
  deriving DecidableEq

/-- The bytes of a file and its checked segments. -/
structure Image where
  data : ByteArray
  container : Container
  machine : Machine
  width : PointerWidth
  base : Int
  segments : List Segment
  /-- Whether the bytes are a copy of memory and not of the file. -/
  isDumped : Bool

namespace Image

/-- The segments that a program may execute. -/
def executableSegments (image : Image) : List Segment :=
  image.segments.filter Segment.isExecutable

/-- The other segments that hold bytes of the file. -/
def dataSegments (image : Image) : List Segment :=
  image.segments.filter fun segment => !segment.isExecutable && segment.isFileBacked

/-- The text that sums up an image. -/
def shown (image : Image) : String :=
  "BinaryImage(format=" ++ image.container.name ++ ", machine=" ++ image.machine.name ++
    ", segments=" ++ toString image.segments.length ++ ")"

/-- Checks that a range of bytes, which a header declares, lies in a file. -/
def require (data : ByteArray) (offset size : Int) (what : String) : Except Fault Unit :=
  if Bytes.inBounds data offset size then .ok ()
  else
    .error { kind := .truncatedImage
             message := what ++ " exceeds the image buffer (" ++ toString data.size ++ " bytes)"
             table := some what, offset := some offset }

end Image

end TypeAtlas
