import TypeAtlas.Image.Declaration
/-!
Placement: where the segments of an image may lie. File ranges have to lie in the file, and the
segments have to follow each other in the address space without overlap. In a memory dump the
segments are placed anew, at the same distances from the address of the dump, and the file range
of a segment is its memory range.
-/

namespace TypeAtlas

namespace Placement

/-- The last address that any machine has. -/
def lastAddress : Int := 0xFFFFFFFFFFFFFFFF

/-- The fault of a segment that lies where it may not. -/
def misplaced (index : Nat) (segment : Segment) (message : String) : Fault :=
  { kind := .malformedLayout, message := "Segment '" ++ segment.name ++ "' " ++ message
    table := some "segments", index := some index, offset := some segment.virtualAddress }

def checkOrder (index : Nat) (previous : Option Segment) (segment : Segment) :
    Except Fault Unit :=
  match previous with
  | none => .ok ()
  | some before =>
      if segment.virtualAddress < before.stop then
        let problem :=
          if segment.virtualAddress < before.virtualAddress then "non-monotonic" else "overlapping"
        .error (misplaced index segment ("is " ++ problem ++ " with '" ++ before.name ++ "'"))
      else .ok ()

/-- Checks the file range of a segment, its end, and its order. -/
def checkSegment (data : ByteArray) (index : Nat) (previous : Option Segment)
    (segment : Segment) : Except Fault Unit := do
  if segment.isFileBacked then
    Image.require data segment.fileOffset segment.fileSize segment.name
  if lastAddress < segment.stop then
    throw (misplaced index segment "exceeds the address space")
  checkOrder index previous segment

/-- Checks segments one after the other, each against the one in front of it. -/
def checkFrom (data : ByteArray) (index : Nat) (previous : Option Segment) :
    List Segment → Except Fault Unit
  | [] => .ok ()
  | segment :: segments => do
      checkSegment data index previous segment
      checkFrom data (index + 1) (some segment) segments

def check (data : ByteArray) (segments : List Segment) : Except Fault Unit :=
  checkFrom data 0 none segments

/-- The place of a segment in a dump taken at an address. -/
def rebase (base dumpBase : Int) (segment : Segment) : Segment :=
  let distance := segment.virtualAddress - base
  { segment with
    fileOffset := distance, fileSize := segment.virtualSize
    virtualAddress := dumpBase + distance }

/-- The segments of a declaration that take up addresses, in a dump if an address is given. -/
def segments (declared : Declaration) (dumpBase : Option Int) : List Segment :=
  let present := declared.segments.filter fun segment => segment.virtualSize != 0
  match dumpBase with
  | none => present
  | some address => present.map (rebase declared.base address)

end Placement

/-- A name that a file gives to an address. -/
structure Symbol where
  name : String
  address : Int
  deriving DecidableEq

/-- The address of a name. Of several definitions of it the first one counts. -/
def Symbol.lookup? (symbols : List Symbol) (name : String) : Option Int :=
  (symbols.find? fun symbol => symbol.name == name).map Symbol.address

namespace MachO

/-- A name without the underscore in front. -/
def plainName (name : String) : String :=
  match name.toList with
  | '_' :: rest => String.ofList rest
  | _ => name

/-- What is reported of a symbol whose name is no text. -/
def unnamable : Fault :=
  { kind := .notText
    message := "startswith first arg must be bytes or a tuple of bytes, not str" }

/-- The symbol of a row, whose name has to be a text. -/
def Entry.symbol (entry : Entry) : Except Fault Symbol :=
  match entry.name with
  | some name => .ok ⟨plainName name, entry.value⟩
  | none => .error unnamable

/-- The symbols of a slice. Those with the value zero are not defined. -/
def Slice.definedSymbols (slice : Slice) : Except Fault (List Symbol) :=
  (slice.symbols.mapM Entry.symbol).map fun symbols =>
    symbols.filter fun symbol => symbol.address != 0

end MachO

namespace Image

/-- The image with the segments that some headers declare, once they have been placed. -/
def ofDeclaration (data : ByteArray) (container : Container) (declared : Declaration)
    (dumpBase : Option Int) : Except Fault Image := do
  let segments := Placement.segments declared dumpBase
  Placement.check data segments
  return { data, container, machine := declared.machine, width := declared.width
           base := dumpBase.getD declared.base, segments, isDumped := dumpBase.isSome }

/-- The image in a file, or in a memory dump if its address is given. -/
def load (parsers : Parsers) (data : ByteArray) (dumpBase : Option Int) : Logged Image := do
  let container ← Logged.ofExcept (Container.detect data)
  let declared ← container.declaration parsers data
  Logged.ofExcept (ofDeclaration data container declared dumpBase)

/-- The symbols of an image, unless its tables of symbols cannot be parsed. That a symbol of a
Mach-O file has no text as its name is a fault. -/
def symbols (image : Image) (parsers : Parsers) : Except Fault (Option (List Symbol)) :=
  match image.container with
  | .elf =>
      .ok ((parsers.elfSymbols image.data).map fun entries =>
        (entries.filter fun entry => entry.home != 0).map fun entry =>
          ⟨entry.name, entry.value⟩)
  | .pe =>
      .ok (some ((parsers.peExports image.data).map fun (name, distance) =>
        ⟨name, image.base + distance⟩))
  | .machO =>
      match parsers.anySlice image.data with
      | none => .ok (some [])
      | some slice => slice.definedSymbols.map some

end Image

end TypeAtlas
