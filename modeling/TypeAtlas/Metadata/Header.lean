import TypeAtlas.Log
import TypeAtlas.Metadata.Layout
import TypeAtlas.Number.Double
/-!
The header of a metadata blob: a sanity value, the version, and where each table lies. Releases
that share a version are told apart by how well the tables fit the blob when they are read with
the layout of the release.
-/

namespace TypeAtlas

/-- A range of bytes of a blob. -/
structure Span where
  offset : Nat
  size : Nat
  deriving DecidableEq

/-- The byte after a range. -/
def Span.stop (span : Span) : Nat := span.offset + span.size

/-- A header whose tables have been checked against the blob. -/
structure Header where
  sanity : Nat
  version : Int
  release : Release
  tables : List (Table × Span)

namespace Header

/-- The sanity value of every metadata blob. -/
def expectedSanity : Nat := 0xFAB11BAF

/-- Where a table lies; a table that is not declared is empty. -/
def span (header : Header) (table : Table) : Span :=
  (header.tables.lookup table).getD ⟨0, 0⟩

/-- The number of records of a table. -/
def count (header : Header) (table : Table) : Nat :=
  (header.span table).size / header.release.recordWidth table

/-- Where a header of some release says that its tables lie. -/
def declaredTables (data : ByteArray) (release : Release) : List (Table × Span) :=
  release.headerTables.zipIdx.map fun (table, slot) =>
    (table, ⟨Bytes.littleEndian data (8 + 8 * slot) 4, Bytes.littleEndian data (12 + 8 * slot) 4⟩)

def truncated (offset : Nat) : Fault :=
  { kind := .truncatedMetadata, message := "Metadata header is truncated"
    table := some "header", offset := some offset }

def tableTruncated (size : Nat) (table : Table) (offset : Nat) : Fault :=
  { kind := .truncatedMetadata
    message := "Table '" ++ table.name ++ "' exceeds the metadata blob (" ++ toString size ++
      " bytes)"
    table := some table.name, offset := some offset }

def tableOverlapping (table : Table) (offset : Nat) : Fault :=
  { kind := .malformedMetadata
    message := "Table '" ++ table.name ++ "' overlaps the header"
    table := some table.name, offset := some offset }

def tableUneven (table : Table) (width offset : Nat) : Fault :=
  { kind := .malformedMetadata
    message := "Size of table '" ++ table.name ++ "' is not a multiple of its record size " ++
      toString width
    table := some table.name, offset := some offset }

/-- Whether a table ends inside a record. -/
def isUneven (release : Release) (table : Table) (size : Nat) : Bool :=
  !release.isBlob table && size % release.recordWidth table != 0

/-- A table has to end inside the blob, start behind the header unless it is empty, and hold whole
records. -/
def checkTable (release : Release) (size : Nat) (table : Table) (span : Span) :
    Except Fault Unit :=
  if size < span.stop then .error (tableTruncated size table span.offset)
  else if 0 < span.size ∧ span.offset < release.headerSize then
    .error (tableOverlapping table span.offset)
  else if isUneven release table span.size then
    .error (tableUneven table (release.recordWidth table) span.offset)
  else .ok ()

/-- Checks each table, given the tables in the order of the header. -/
def checkTables (release : Release) (size : Nat) : List (Table × Span) → Except Fault Unit
  | [] => .ok ()
  | (table, span) :: rest => do
      checkTable release size table span
      checkTables release size rest

/-- Whether a table is empty, or lies between the header and the end of the blob and holds whole
records. -/
def tableFits (release : Release) (size : Nat) (entry : Table × Span) : Bool :=
  entry.2.size == 0 ||
    (decide (release.headerSize ≤ entry.2.offset) && decide (entry.2.stop ≤ size) &&
      !isUneven release entry.1 entry.2.size)

/-- Whether the tables read with the layout of a release fit the blob. -/
def fits (data : ByteArray) (release : Release) : Bool :=
  decide (release.headerSize ≤ data.size) &&
    (declaredTables data release).all (tableFits release data.size)

/-- Whether the first table starts right behind the header. -/
def startsExactly (data : ByteArray) (release : Release) : Bool :=
  decide (release.headerSize ≤ data.size) &&
    (declaredTables data release).head?.any fun entry => entry.2.offset == release.headerSize

/-- How badly a release suits a blob: a release whose tables fit comes before one whose tables do
not, and then one whose first table starts right behind the header before one where it does
not. -/
def rank (data : ByteArray) (release : Release) : Nat :=
  (if fits data release then 0 else 2) + (if startsExactly data release then 0 else 1)

/-- The releases that suit a blob best, in their given order. -/
def bestReleases (data : ByteArray) (releases : List Release) : List Release :=
  releases.filter fun release =>
    releases.all fun other => decide (rank data release ≤ rank data other)

def unsupportedVersion (version : Int) : Fault :=
  { kind := .unsupportedMetadataVersion
    message := "Unsupported metadata version " ++ toString version ++ ", supported: " ++
      Release.supportedTags
    table := some "header", offset := some 4 }

/-- The warning about releases that suit a blob equally well. -/
def ambiguity (version : Int) (releases : List Release) (chosen : Release) : String :=
  "Metadata version " ++ toString version ++ " is ambiguous between " ++
    ", ".intercalate (releases.map Release.tag) ++ ", assume " ++ chosen.tag ++
    ". Use a version override if the result is wrong."

/-- The release of a blob: the only one of its version, or the lowest of those that suit the blob
best, with a warning if there are several. -/
def detectRelease (data : ByteArray) (version : Int) : Logged Release :=
  match Release.candidates version with
  | [] => throw (unsupportedVersion version)
  | [release] => pure release
  | first :: rest => do
      let best := bestReleases data (first :: rest)
      let chosen := best.headD first
      if 1 < best.length then Logged.warn (ambiguity version best chosen)
      return chosen

def unsupportedOverride (number : Double) : Fault :=
  { kind := .unsupportedMetadataVersion
    message := "Unsupported metadata version override " ++ number.text
    table := some "header" }

/-- The release that an override names, with a warning if the version of the blob is another
one. -/
def overriddenRelease (version : Int) (number : Double) : Logged Release :=
  match Release.ofDouble? number with
  | none => throw (unsupportedOverride number)
  | some release => do
      if (release.major : Int) ≠ version then
        Logged.warn
          ("Override metadata version " ++ toString version ++ " with " ++ number.text ++ ".")
      return release

/-- The release of a blob: the one of an override, or else one that is detected. -/
def chooseRelease (data : ByteArray) (version : Int) (override : Option Double) :
    Logged Release :=
  match override with
  | some number => overriddenRelease version number
  | none => detectRelease data version

def insane (sanity : Nat) : Fault :=
  { kind := .unsupportedFormat
    message := "Invalid metadata sanity " ++ Hexadecimal.ofNat sanity
    table := some "header", offset := some 0 }

/-- The header of a blob as a release reads it, with all tables checked. -/
def readWith (data : ByteArray) (sanity : Nat) (version : Int) (release : Release) :
    Except Fault Header := do
  if data.size < release.headerSize then throw (truncated data.size)
  let tables := declaredTables data release
  checkTables release data.size tables
  return { sanity, version, release, tables }

/-- Reads the header of a blob. -/
def read (data : ByteArray) (override : Option Double) : Logged Header := do
  if data.size < 8 then throw (truncated 0)
  let sanity := Bytes.littleEndian data 0 4
  let version := Bytes.toSigned (Bytes.littleEndian data 4 4) 4
  if sanity ≠ expectedSanity then throw (insane sanity)
  let release ← chooseRelease data version override
  Logged.ofExcept (readWith data sanity version release)

end Header

end TypeAtlas
