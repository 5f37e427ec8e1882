import TypeAtlas.Bytes
import TypeAtlas.Fault
import TypeAtlas.Graph.Reference
import TypeAtlas.Metadata.Record
import TypeAtlas.Number.Double
import TypeAtlas.Release
import TypeAtlas.Text.Basic

namespace TypeAtlas

/-- A decoded default value. -/
inductive Constant
  | null
  | boolean (value : Bool)
  | character (unit : Nat)
  | integer (value : Int)
  | real (value : Double)
  | text (value : String)

namespace Constant

/-- The offset that stands for no value. -/
def noData : Int := -1

def malformed (message : String) (index : Nat) (offset : Int) : Fault :=
  { kind := .malformedMetadata, message
    table := some (Table.name .fieldDefaultValues), index := some index, offset := some offset }

/-- The bytes of a value have to lie inside the data. -/
def requireBytes (data : ByteArray) (index : Nat) (place : Int) (size : Nat) :
    Except Fault Nat :=
  if place < 0 ∨ (data.size : Int) < place + size then
    .error (malformed "Default value exceeds the default value data table" index place)
  else .ok place.toNat

/-- The width of a number of some kind. -/
def numberWidth? (kind : Nat) : Option Nat :=
  if kind = Kind.boolean ∨ kind = Kind.int8 ∨ kind = Kind.uint8 then some 1
  else if kind = Kind.char ∨ kind = Kind.int16 ∨ kind = Kind.uint16 then some 2
  else if kind = Kind.int32 ∨ kind = Kind.uint32 ∨ kind = Kind.single then some 4
  else if kind = Kind.int64 ∨ kind = Kind.uint64 ∨ kind = Kind.double then some 8
  else none

/-- The constant that some bits stand for in a number of some kind. -/
def ofNumber (kind width bits : Nat) : Constant :=
  if kind = Kind.boolean then boolean (bits != 0)
  else if kind = Kind.char then character bits
  else if kind = Kind.single then real (Double.ofSingleBits bits)
  else if kind = Kind.double then real (Double.ofBits bits)
  else if kind = Kind.int8 ∨ kind = Kind.int16 ∨ kind = Kind.int32 ∨ kind = Kind.int64 then
    integer (Bytes.toSigned bits width)
  else integer bits

/-- A compressed number of 32 bits and the place after it. The first byte tells the form: below
`0x80` it is the number, below `0xC0` it has six bits of a number of two bytes, below `0xE0` five
bits of a number of four bytes, each most significant byte first; after `0xF0` a whole number
follows, and `0xFE` and `0xFF` are the two greatest numbers. -/
def readCompressed (data : ByteArray) (index : Nat) (place : Int) : Except Fault (Nat × Nat) := do
  let start ← requireBytes data index place 1
  let first := (Bytes.byteAt data start).toNat
  if first < 0x80 then return (first, start + 1)
  else if first < 0xC0 then
    let _ ← requireBytes data index place 2
    return (first % 0x40 * 0x100 + Bytes.bigEndian data (start + 1) 1, start + 2)
  else if first < 0xE0 then
    let _ ← requireBytes data index place 4
    return (first % 0x20 * 0x1000000 + Bytes.bigEndian data (start + 1) 3, start + 4)
  else if first = 0xF0 then
    let _ ← requireBytes data index place 5
    return (Bytes.littleEndian data (start + 1) 4, start + 5)
  else if first = 0xFE then return (0xFFFFFFFE, start + 1)
  else if first = 0xFF then return (0xFFFFFFFF, start + 1)
  else
    throw (malformed ("Invalid compressed integer prefix " ++ Hexadecimal.ofNat first) index place)

/-- The length of a text and the place behind it. -/
def readLength (release : Release) (data : ByteArray) (index : Nat) (place : Int) :
    Except Fault (Int × Nat) := do
  if release.isAtLeast .v29_0 then
    let (length, next) ← readCompressed data index place
    return (Bytes.toSigned length 4, next)
  else
    let start ← requireBytes data index place 4
    return (Bytes.toSigned (Bytes.littleEndian data start 4) 4, start + 4)

/-- A string with its length in front. The length -1 stands for no string. -/
def readText (release : Release) (data : ByteArray) (index : Nat) (place : Int) :
    Except Fault Constant := do
  let (length, next) ← readLength release data index place
  if length = -1 then return null
  else if length < 0 then
    throw (malformed ("Negative string constant length " ++ toString length) index place)
  else
    let start ← requireBytes data index next length.toNat
    return text (Text.decode (Bytes.slice data start length.toNat).toList)

/-- The value of a kind at a place of the data. Kinds other than numbers and strings have no
decoded value. -/
def read (release : Release) (data : ByteArray) (kind : Nat) (place : Int) (index : Nat) :
    Except Fault Constant :=
  if place = noData then .ok null
  else
    match numberWidth? kind with
    | some width => do
        let start ← requireBytes data index place width
        return ofNumber kind width (Bytes.littleEndian data start width)
    | none => if kind = Kind.string then readText release data index place else .ok null

end Constant

end TypeAtlas
