import TypeAtlas.Bytes
import TypeAtlas.Fault
import TypeAtlas.Metadata.Header
import TypeAtlas.Text.Basic

namespace TypeAtlas

/-- A part of a blob that holds strings. -/
structure Strings where
  data : ByteArray
  start : Nat
  size : Nat

namespace Strings

/-- The offset that stands for no string. -/
def noString : Int := -1

/-- The place of the zero byte that ends the string at an offset, if the table holds it. -/
def stop? (strings : Strings) (offset : Int) : Option Nat :=
  match offset with
  | .ofNat n =>
      if n < strings.size then
        Bytes.terminator? strings.data (strings.start + n) (strings.size - n)
      else none
  | .negSucc _ => none

/-- Whether an offset stands for no string, or a string starts there and ends inside the table. -/
def contains (strings : Strings) (offset : Int) : Bool :=
  offset == noString || (strings.stop? offset).isSome

def unreadable (offset : Int) : Fault :=
  { kind := .malformedMetadata
    message := "String offset outside of the string table or unterminated"
    table := some "strings", offset := some offset }

/-- The string at an offset. -/
def get (strings : Strings) (offset : Int) : Except Fault String :=
  if offset = noString then .ok ""
  else
    match strings.stop? offset with
    | none => .error (unreadable offset)
    | some stop =>
        .ok (Text.decode (strings.data.extract (strings.start + offset.toNat) stop).toList)

theorem get_isOk_iff (strings : Strings) (offset : Int) :
    (∃ text, strings.get offset = .ok text) ↔ strings.contains offset = true := by
  unfold get contains
  by_cases hnone : offset = noString
  · simp [hnone]
  · simp only [hnone, if_false, beq_eq_false_iff_ne.mpr hnone, Bool.false_or]
    cases strings.stop? offset <;> simp

end Strings

/-- The tables of a blob. -/
structure Metadata where
  data : ByteArray
  header : Header
  tables : List (Table × Array Record)

namespace Metadata

def release (metadata : Metadata) : Release := metadata.header.release

/-- The records of a table; a table that the release does not have is empty. -/
def table (metadata : Metadata) (table : Table) : Array Record :=
  (metadata.tables.lookup table).getD #[]

/-- The bytes of a table. -/
def blob (metadata : Metadata) (table : Table) : ByteArray :=
  let span := metadata.header.span table
  Bytes.slice metadata.data span.offset span.size

/-- The string table of a header. -/
def stringsOf (data : ByteArray) (header : Header) : Strings :=
  let span := header.span .strings
  ⟨data, span.offset, span.size⟩

def strings (metadata : Metadata) : Strings :=
  stringsOf metadata.data metadata.header

def invalidString (table : Table) (index : Nat) (field : String) (offset : Int) : Fault :=
  { kind := .malformedMetadata
    message := "Field '" ++ field ++ "' references an invalid string"
    table := some table.name, index := some index, offset := some offset }

def literalOutside (index : Nat) (offset : Int) : Fault :=
  { kind := .malformedMetadata
    message := "String literal exceeds the literal data table"
    table := some (Table.name .stringLiterals), index := some index, offset := some offset }

/-- Checks that the named fields of a record hold offsets of strings. -/
def checkNames (fields : List Field) (strings : Strings) (table : Table) (index : Nat)
    (record : Record) : List String → Except Fault Unit
  | [] => .ok ()
  | name :: names =>
      let offset := record.value fields name
      if strings.contains offset then checkNames fields strings table index record names
      else .error (invalidString table index name offset)

/-- Checks that the text of a string literal lies in the literal data. -/
def checkLiteral (fields : List Field) (dataSize index : Nat) (record : Record) :
    Except Fault Unit :=
  let start := record.value fields "data_index"
  let length := record.value fields "length"
  if start < 0 ∨ (dataSize : Int) < start + length then .error (literalOutside index start)
  else .ok ()

/-- Applies a check to every record and its index, in order. -/
def forRecords (check : Nat → Record → Except Fault Unit) (index : Nat) :
    List Record → Except Fault Unit
  | [] => .ok ()
  | record :: records => do
      check index record
      forRecords check (index + 1) records

/-- Reads the records of a table and checks them. -/
def readTable (data : ByteArray) (header : Header) (table : Table) :
    Except Fault (Array Record) := do
  let fields := header.release.fieldsOf table
  let span := header.span table
  let records := Record.readAll fields data span.offset (header.count table)
  let names := Release.stringFields table
  forRecords
    (fun index record => checkNames fields (stringsOf data header) table index record names) 0
    records.toList
  if table = .stringLiterals then
    forRecords (checkLiteral fields (header.span .stringLiteralData).size) 0 records.toList
  return records

/-- The checked records of some tables, in their order. -/
def readTables (data : ByteArray) (header : Header) :
    List Table → Except Fault (List (Table × Array Record))
  | [] => .ok []
  | table :: tables => do
      let records ← readTable data header table
      let rest ← readTables data header tables
      return (table, records) :: rest

/-- The line that says what has been read. -/
def summary (metadata : Metadata) : String :=
  "Read metadata version " ++ metadata.release.tag ++ ": " ++
    toString (metadata.table .typeDefinitions).size ++ " types, " ++
    toString (metadata.table .methods).size ++ " methods."

/-- The metadata of a blob, read with the layout of an override or of the detected release. -/
def read (data : ByteArray) (override : Option Double) : Logged Metadata := do
  let header ← Header.read data override
  let tables ← Logged.ofExcept (readTables data header header.release.recordTables)
  let metadata : Metadata := { data, header, tables }
  Logged.info metadata.summary
  return metadata

end Metadata

end TypeAtlas
