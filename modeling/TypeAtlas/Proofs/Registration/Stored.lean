import TypeAtlas.Proofs.Image.Contents
import TypeAtlas.Proofs.Metadata.Records
import TypeAtlas.Proofs.Registration.Arrays
import TypeAtlas.Proofs.Session.Opening

namespace TypeAtlas

/-- The values of a row of the table of generic methods fit their fields, and the row is made of
them. -/
def GenericMethodEntry.Fits (release : Release) (entry : GenericMethodEntry) : Prop :=
  Record.Holds release.genericMethodFields entry.values ∧
    ofRecord release.genericMethodFields entry.values = entry

namespace Image

variable {α : Type} {image : Image} {write : α → List UInt8} {items : List α} {address : Int}

/-- Some bytes stand at an address of an image, in the part of one segment that the file fills. -/
def Stores (image : Image) (address : Int) (bytes : List UInt8) : Prop :=
  ∃ segment ∈ image.segments, segment.Fills address bytes.length ∧
    Bytes.matchesAt image.data (Memory.placeIn segment address) bytes = true

/-- The members of an array stand one behind the other. -/
def StoresArray (image : Image) (address : Int) (write : α → List UInt8) (items : List α) : Prop :=
  items ≠ [] → image.Stores address (items.flatMap write)

/-- Words that fit a width stand one behind the other. -/
structure StoresWords (image : Image) (width : Nat) (address : Int) (words : List Nat) : Prop where
  fits : ∀ word ∈ words, word < 256 ^ width
  bytes : image.StoresArray address (fun word => Bytes.ofNat word width) words

/-- Pointers stand one behind the other. -/
def StoresPointers (image : Image) (address : Int) (pointers : List Nat) : Prop :=
  image.StoresWords image.width.bytes address pointers

/-- Signed words of 32 bits stand one behind the other. -/
structure StoresInts (image : Image) (address : Int) (values : List Int) : Prop where
  fits : ∀ value ∈ values, (Field.i32 "value").Holds value
  bytes : image.StoresArray address (Field.i32 "value").write values

instance (bytes : List UInt8) : Decidable (image.Stores address bytes) :=
  inferInstanceAs (Decidable (∃ _ ∈ _, _))

instance [DecidableEq α] : Decidable (image.StoresArray address write items) :=
  inferInstanceAs (Decidable (_ → _))

instance (width : Nat) (words : List Nat) : Decidable (image.StoresWords width address words) :=
  decidable_of_iff ((∀ word ∈ words, word < 256 ^ width) ∧
      image.StoresArray address (fun word => Bytes.ofNat word width) words)
    ⟨fun h => ⟨h.1, h.2⟩, fun h => ⟨h.fits, h.bytes⟩⟩

instance (pointers : List Nat) : Decidable (image.StoresPointers address pointers) :=
  inferInstanceAs (Decidable (image.StoresWords _ _ _))

instance (values : List Int) : Decidable (image.StoresInts address values) :=
  decidable_of_iff ((∀ value ∈ values, (Field.i32 "value").Holds value) ∧
      image.StoresArray address (Field.i32 "value").write values)
    ⟨fun h => ⟨h.1, h.2⟩, fun h => ⟨h.fits, h.bytes⟩⟩

section Reading

theorem words_flatMap {width : Nat} {value : α → Nat}
    (hwrite : ∀ item ∈ items, write item = Bytes.ofNat (value item) width)
    (hvalue : ∀ item ∈ items, value item < 256 ^ width) :
    Memory.words (items.flatMap write).toByteArray width items.length = items.map value := by
  have hwidth : ∀ item ∈ items, (write item).length = width := fun item hitem => by
    rw [hwrite item hitem, Bytes.length_ofNat]
  refine List.ext_getElem (by simp [Memory.words]) fun row hrow _ => ?_
  rw [Memory.words, List.length_map, List.length_range] at hrow
  have hitem := List.getElem_mem hrow
  have hmatches := Bytes.matchesAt_row hwidth (Bytes.matchesAt_toByteArray _)
    (List.getElem?_eq_getElem hrow)
  rw [hwrite _ hitem, Nat.zero_add] at hmatches
  simpa [Memory.words] using Bytes.littleEndian_of_matchesAt (hvalue _ hitem) hmatches

variable (h : image.memory.Laid) (what : String)
include h

theorem readBytes_of_stores {bytes : List UInt8} (hstores : image.Stores address bytes) :
    image.memory.readBytes address bytes.length what = .ok bytes.toByteArray := by
  obtain ⟨segment, hsegment, hfills, hmatches⟩ := hstores
  rw [readBytes_memory_eq_ok_iff h]
  exact ⟨segment, hsegment, hfills, Bytes.matchesAt_iff_slice_eq.mp hmatches⟩

theorem readBytes_of_storesArray {width : Nat}
    (hwidth : ∀ item ∈ items, (write item).length = width) (hitems : items ≠ [])
    (hstores : image.StoresArray address write items) :
    image.memory.readBytes address (items.length * width : Nat) what =
      .ok (items.flatMap write).toByteArray := by
  have hread := readBytes_of_stores h what (hstores hitems)
  rwa [Bytes.length_flatMap_of_length hwidth] at hread

theorem readWords_of_storesArray {width : Nat} (value : α → Nat)
    (hwrite : ∀ item ∈ items, write item = Bytes.ofNat (value item) width)
    (hvalue : ∀ item ∈ items, value item < 256 ^ width)
    (hstores : image.StoresArray address write items) :
    image.memory.readWords width address items.length what = .ok (items.map value) := by
  by_cases hitems : items = []
  · subst hitems
    rfl
  · have hwidth : ∀ item ∈ items, (write item).length = width := fun item hitem => by
      rw [hwrite item hitem, Bytes.length_ofNat]
    have hcount : (items.length : Int) ≠ 0 := by simpa using hitems
    have hread := readBytes_of_storesArray h what hwidth hitems hstores
    rw [Memory.readWords, if_neg hcount, ← Int.natCast_mul, hread, Except.map, Int.toNat_natCast,
      words_flatMap hwrite hvalue]

theorem readPointers_of_stores {pointers : List Nat}
    (hstores : image.StoresPointers address pointers) :
    image.memory.readPointers address pointers.length what = .ok pointers := by
  have hread := readWords_of_storesArray h what id (fun _ _ => rfl) hstores.fits hstores.bytes
  rwa [List.map_id] at hread

theorem readInts_of_stores {values : List Int} (hstores : image.StoresInts address values) :
    image.memory.readInts address values.length what = .ok values := by
  have hnonneg : ∀ value : Int, 0 ≤ value % (Nat.pow 256 4 : Int) := fun value =>
    Int.emod_nonneg value (by decide)
  have hlt : ∀ value ∈ values, (value % (Nat.pow 256 4 : Int)).toNat < Nat.pow 256 4 :=
    fun value _ => (Int.toNat_lt (hnonneg value)).mpr (Int.emod_lt_of_pos value (by decide))
  rw [Memory.readInts, readWords_of_storesArray h what _ (fun _ _ => rfl) hlt hstores.bytes,
    Except.map, List.map_map]
  refine congrArg Except.ok ((List.map_congr_left fun value hvalue => ?_).trans (List.map_id _))
  obtain ⟨hleast, hbound⟩ := hstores.fits value hvalue
  rw [Function.comp_apply, Int.toNat_of_nonneg (hnonneg value)]
  exact Bytes.toSigned_emod (by decide) hleast hbound

theorem readText_of_stores {text : String} (hzero : 0 ∉ text.toUTF8.toList)
    (hsize : text.toUTF8.size < Memory.maxTextSize)
    (hstores : image.Stores address (Scan.terminated text)) :
    image.memory.readText address what = .ok (some text) := by
  have hread := readBytes_of_stores h what hstores
  rw [Scan.terminated, Bytes.length_toList_concat] at hread
  exact (Memory.readText_eq_ok_iff h).mpr
    ⟨text.toUTF8, Text.decode_toUTF8 text, hsize, hzero, hread⟩

end Reading

section Structures

/-- The slots of a structure stand one behind the other, under the names that they have. -/
structure StoresSlots (image : Image) (names : List String) (address : Int) (slots : Slots) :
    Prop where
  names : slots.map Prod.fst = names
  pointers : image.StoresPointers address (slots.map Prod.snd)

/-- A module stands at its address, and what its slots lead to where they say. -/
structure StoresModule (image : Image) (release : Release) (module : CodeGenModule)
    (slots : Slots) : Prop where
  stands : image.StoresSlots release.codeGenModuleSlots module.address slots
  name : image.Stores (slots.value "module_name") (Scan.terminated module.name)
  nonzero : 0 ∉ module.name.toUTF8.toList
  short : module.name.toUTF8.size < Memory.maxTextSize
  count : slots.value "method_pointer_count" = module.methodPointers.length
  methodPointers : image.StoresPointers (slots.value "method_pointers") module.methodPointers

/-- A code registration stands at its address, and what its slots lead to where they say. No two of
its modules have the same name. -/
structure StoresCode (image : Image) (release : Release) (code : CodeRegistration) : Prop where
  stands : image.StoresSlots release.codeRegistrationSlots code.address code.slots
  count : code.slots.value "code_gen_modules_count" = code.modules.length
  directory : image.StoresPointers (code.slots.value "code_gen_modules")
    (code.modules.map CodeGenModule.address)
  modules : ∀ module ∈ code.modules, ∃ slots, image.StoresModule release module slots
  names : (code.modules.map CodeGenModule.name).Nodup
  genericCount : code.slots.value "generic_method_pointers_count" = code.genericMethodPointers.size
  genericPointers : image.StoresPointers (code.slots.value "generic_method_pointers")
    code.genericMethodPointers.toList

/-- A metadata registration stands at its address, and what its slots lead to where they say. -/
structure StoresMetadata (image : Image) (release : Release) (metadata : MetadataRegistration) :
    Prop where
  stands : image.StoresSlots release.metadataRegistrationSlots metadata.address metadata.slots
  tableCount : metadata.slots.value "generic_method_table_count" =
    metadata.genericMethodTable.length
  entries : ∀ entry ∈ metadata.genericMethodTable, entry.Fits release
  table : image.StoresArray (metadata.slots.value "generic_method_table")
    (fun entry => Record.write release.genericMethodFields entry.values) metadata.genericMethodTable
  offsetsCount : metadata.slots.value "field_offsets_count" = metadata.fieldOffsets.size
  fieldOffsets : image.StoresPointers (metadata.slots.value "field_offsets")
    metadata.fieldOffsets.toList

/-- The offsets of the fields of a type stand at an address, or the type has none and the address is
zero. -/
def StoresOffsets (image : Image) : Option (List Int) → Nat → Prop
  | none, pointer => pointer = 0
  | some offsets, pointer => image.StoresInts pointer offsets

end Structures

end Image

/-- The offsets of the fields of a type are read at an address, or the type has none and the address
is zero. -/
def Memory.ReadsOffsets (memory : Memory) : Option (List Int) → Nat → Prop
  | none, pointer => pointer = 0
  | some offsets, pointer =>
      memory.readInts pointer offsets.length "field_offsets" = .ok offsets

open Image

variable {image : Image} {release : Release}

theorem Slots.read_of_stores (h : image.memory.Laid) {names : List String} {address : Int}
    {slots : Slots} {what : String} (hstores : image.StoresSlots names address slots) :
    Slots.read image.memory names address what = .ok slots := by
  obtain ⟨rfl, hpointers⟩ := hstores
  have hread := readPointers_of_stores h what hpointers
  rw [List.length_map] at hread
  rw [Slots.read, List.length_map, hread, Except.map, List.zip_map']
  simp

namespace CodeGenModule

theorem read_of_stores (h : image.memory.Laid) {module : CodeGenModule} {slots : Slots}
    (index : Nat) (hstores : image.StoresModule release module slots) :
    read image.memory release index module.address = .ok module := by
  have hname := readText_of_stores h "module_name" hstores.nonzero hstores.short
    hstores.name
  have hpointers := readPointers_of_stores h "method_pointers" hstores.methodPointers
  have hparts : parts image.memory release module.address =
      .ok (slots, some module.name, module.methodPointers) := by
    rw [parts, Slots.read_of_stores h hstores.stands, ok_bind, hname, ok_bind, hstores.count,
      hpointers, ok_bind]
    rfl
  rw [read, hparts]

theorem put_of_not_mem {module : CodeGenModule} {modules : List CodeGenModule}
    (hname : module.name ∉ modules.map name) : put module modules = modules ++ [module] := by
  induction modules with
  | nil => rfl
  | cons other modules ih =>
      rw [List.map_cons, List.mem_cons, not_or] at hname
      rw [put, if_neg (Ne.symm hname.1), ih hname.2, List.cons_append]

theorem foldl_put {found modules : List CodeGenModule}
    (hnames : ((found ++ modules).map name).Nodup) :
    modules.foldl (fun found module => put module found) found = found ++ modules := by
  induction modules generalizing found with
  | nil => rw [List.foldl_nil, List.append_nil]
  | cons module modules ih =>
      have hname : module.name ∉ found.map name := by
        rw [List.map_append, List.map_cons, List.nodup_append] at hnames
        exact fun hmem => hnames.2.2 _ hmem _ List.mem_cons_self rfl
      rw [List.append_cons] at hnames
      rw [List.foldl_cons, put_of_not_mem hname, ih hnames, ← List.append_cons]

theorem readable_map_ok {modules : List CodeGenModule} (hnames : (modules.map name).Nodup) :
    readable (modules.map Except.ok) = modules := by
  have hread : (modules.map Except.ok : List (Except Fault _)).filterMap Except.toOption =
      modules := by
    rw [List.filterMap_map]
    exact List.filterMap_some
  rw [readable, hread]
  exact foldl_put hnames

theorem faults_map_ok (modules : List CodeGenModule) : faults (modules.map Except.ok) = [] := by
  rw [faults, List.filterMap_map, List.filterMap_eq_nil_iff]
  exact fun _ _ => rfl

theorem map_zipIdx_address {modules : List CodeGenModule}
    {answer : Nat × Nat → Except Fault CodeGenModule}
    (hanswer : ∀ (index : Nat) (module : CodeGenModule), modules[index]? = some module →
      answer (module.address, index) = .ok module) :
    (modules.map address).zipIdx.map answer = modules.map Except.ok := by
  refine List.ext_getElem (by simp) fun index hindex _ => ?_
  rw [List.length_map, List.length_zipIdx, List.length_map] at hindex
  simpa using hanswer index _ (List.getElem?_eq_getElem hindex)

end CodeGenModule

namespace CodeRegistration

theorem directory_of_stores (h : image.memory.Laid) {code : CodeRegistration}
    (hstores : image.StoresCode release code) :
    directory image.memory release code.address =
      .ok (code.slots, code.modules.map CodeGenModule.address) := by
  have hread := readPointers_of_stores h "code_gen_modules" hstores.directory
  rw [List.length_map] at hread
  rw [directory, Slots.read_of_stores h hstores.stands, ok_bind, hstores.count, hread, ok_bind]
  rfl

theorem read_of_stores (h : image.memory.Laid) {code : CodeRegistration}
    (hstores : image.StoresCode release code) :
    read image.memory release code.address = (.ok code, []) := by
  have hgeneric := readPointers_of_stores h "generic_method_pointers" hstores.genericPointers
  rw [Array.length_toList] at hgeneric
  rw [read, directory_of_stores h hstores]
  dsimp only
  rw [CodeGenModule.map_zipIdx_address, hstores.genericCount, hgeneric,
    CodeGenModule.readable_map_ok hstores.names, CodeGenModule.faults_map_ok, Except.map,
    Array.toArray_toList]
  intro index module hmodule
  obtain ⟨slots, hslots⟩ := hstores.modules module (List.mem_of_getElem? hmodule)
  exact CodeGenModule.read_of_stores h index hslots

end CodeRegistration

namespace MetadataRegistration

theorem width_pos_of_mem_genericMethodFields :
    ∀ field ∈ release.genericMethodFields, 0 < field.width := by
  cases release <;> decide

theorem readGenericMethods_of_stores (h : image.memory.Laid) {address : Nat}
    {entries : List GenericMethodEntry} (hentries : ∀ entry ∈ entries, entry.Fits release)
    (hstores : image.StoresArray address
      (fun entry => Record.write release.genericMethodFields entry.values) entries) :
    readGenericMethods image.memory release.genericMethodFields address entries.length =
      .ok entries := by
  by_cases hnone : entries = []
  · subst hnone
    rfl
  · have hwidth : ∀ entry ∈ entries,
        (Record.write release.genericMethodFields entry.values).length =
          Record.width release.genericMethodFields := fun entry hentry =>
      Record.length_write (hentries entry hentry).1.length_eq.symm
    have hread := readBytes_of_storesArray h "generic_method_table" hwidth hnone hstores
    have hrecords : ∀ record ∈ entries.map GenericMethodEntry.values,
        Record.Holds release.genericMethodFields record := by
      intro record hrecord
      obtain ⟨entry, hentry, rfl⟩ := List.mem_map.mp hrecord
      exact (hentries entry hentry).1
    have hrows := Record.readAll_of_matchesAt width_pos_of_mem_genericMethodFields hrecords
      (Bytes.matchesAt_toByteArray _)
    rw [List.length_map, List.flatMap_map] at hrows
    rw [readGenericMethods, if_neg (by simpa using hnone), hread, Except.map, hrows, List.map_map]
    exact congrArg Except.ok
      ((List.map_congr_left fun entry hentry => (hentries entry hentry).2).trans (List.map_id _))

theorem read_of_stores (h : image.memory.Laid) {metadata : MetadataRegistration}
    (hstores : image.StoresMetadata release metadata) :
    read image.memory release metadata.address = .ok metadata := by
  have hoffsets := readPointers_of_stores h "field_offsets" hstores.fieldOffsets
  rw [Array.length_toList] at hoffsets
  rw [read, Slots.read_of_stores h hstores.stands, ok_bind, hstores.tableCount,
    readGenericMethods_of_stores h hstores.entries hstores.table, ok_bind, hstores.offsetsCount,
    hoffsets, ok_bind, Array.toArray_toList]
  rfl

end MetadataRegistration

theorem readsOffsets_of_stores (h : image.memory.Laid) {offsets : Option (List Int)}
    {pointer : Nat} (hstores : image.StoresOffsets offsets pointer) :
    image.memory.ReadsOffsets offsets pointer := by
  cases offsets with
  | none => exact hstores
  | some offsets => exact readInts_of_stores h _ hstores

namespace Registrations

variable {parsers : Parsers} {data : ByteArray} {dumpBase : Option Int} {graph : TypeGraph}
  {hints : Hints} {code : CodeRegistration} {metadata : MetadataRegistration}

theorem firstAddress_of_ne_zero {address : Int} {given : List (Option Int)}
    {scan : Unit → Except Fault (Option Int)} (hne : address ≠ 0) :
    firstAddress (some address :: given) scan = .ok (some address) := by
  have hfirst : ((some address :: given).filterMap id).find? (· != 0) = some address := by
    exact List.find?_cons_of_pos (by simpa using hne)
  rw [firstAddress, hfirst]

theorem find_of_stores (h : image.memory.Laid) (hcode : image.StoresCode graph.release code)
    (hmetadata : image.StoresMetadata graph.release metadata)
    (hcodeHint : hints.code = some code.address) (hcodeAddress : code.address ≠ 0)
    (hmetadataHint : hints.metadata = some metadata.address)
    (hmetadataAddress : metadata.address ≠ 0) (symbols : List Symbol) :
    find image.memory graph hints symbols =
      .ok { code := some code, metadata := some metadata, issues := [] } := by
  rw [find_eq, codeAddress, codeHints, hcodeHint, firstAddress_of_ne_zero hcodeAddress, ok_bind,
    metadataAddress, metadataHints, hmetadataHint, firstAddress_of_ne_zero hmetadataAddress,
    ok_bind, readCode, CodeRegistration.read_of_stores h hcode, readMetadata,
    MetadataRegistration.read_of_stores h hmetadata]
  rfl

/-- Structures that are stored at the addresses that are given are discovered as they are, and
without issues, if the symbols of the image can be read. Otherwise discovery ends in a fault about
the name of a symbol, although it needs no symbol. The offsets of fields that are stored are read
from the addresses that have been found. -/
theorem locate_of_stores (hload : (Image.load parsers data dumpBase).outcome.1 = .ok image)
    (hcode : image.StoresCode graph.release code)
    (hmetadata : image.StoresMetadata graph.release metadata) {offsets : List (Option (List Int))}
    (hoffsets : List.Forall₂ image.StoresOffsets offsets metadata.fieldOffsets.toList)
    (hcodeHint : hints.code = some code.address) (hcodeAddress : code.address ≠ 0)
    (hmetadataHint : hints.metadata = some metadata.address)
    (hmetadataAddress : metadata.address ≠ 0) :
    ((∃ found, (locate parsers image graph hints).outcome.1 = .ok found) ↔
        (hints.symbolSearch = true → image.isDumped = false → image.container = .machO →
          MachO.NamesText parsers image.data)) ∧
      (∀ fault, (locate parsers image graph hints).outcome.1 = .error fault →
        fault.kind = .notText) ∧
      (∀ found, (locate parsers image graph hints).outcome.1 = .ok found →
        found = { code := some code, metadata := some metadata, issues := [] }) ∧
      List.Forall₂ image.memory.ReadsOffsets offsets metadata.fieldOffsets.toList := by
  have hlaid := Memory.laid_of_load hload
  have hfind := find_of_stores hlaid hcode hmetadata hcodeHint hcodeAddress hmetadataHint
    hmetadataAddress
  refine ⟨?_, fun fault hfault => ?_, fun found hfound => ?_,
    hoffsets.imp fun _ _ => readsOffsets_of_stores hlaid⟩
  · rw [← symbolsOf_isOk_iff, outcome_locate]
    constructor
    · rintro ⟨found, hfound⟩
      obtain ⟨symbols, hsymbols, -⟩ := bind_eq_ok hfound
      exact ⟨symbols, hsymbols⟩
    · rintro ⟨symbols, hsymbols⟩
      rw [hsymbols, ok_bind, hfind]
      exact ⟨_, rfl⟩
  · rw [outcome_locate] at hfault
    rcases bind_eq_error hfault with hsymbols | ⟨symbols, -, hnone⟩
    · exact kind_of_symbolsOf hsymbols
    · cases (hfind symbols).symm.trans hnone
  · rw [outcome_locate] at hfound
    obtain ⟨symbols, -, hfound⟩ := bind_eq_ok hfound
    exact Except.ok.inj (hfound.symm.trans (hfind symbols))

/-- A file for a 32-bit machine with a segment behind its headers. The segment holds the name of a
module, its two pointers at 4, the module at 12, the array of it at 76, a pointer of a generic
method at 80, a code registration at 84, a row of generic methods at 140, two offsets of fields at
156, the addresses of the offsets of two types at 164, and a metadata registration at 172. -/
def storedFile : ByteArray :=
  ⟨#[0x7F, 0x45, 0x4C, 0x46, 1, 1, 1, 0, 0, 0, 0, 0, 0, 0, 0, 0, 2, 0, 3, 0, 1, 0, 0, 0, 0, 0, 0,
    0, 0x34, 0, 0, 0, 0, 0, 0, 0, 0, 0, 0, 0, 0x34, 0, 0x20, 0, 1, 0, 0x28, 0, 0, 0, 0, 0, 1, 0,
    0, 0, 0x54, 0, 0, 0, 0, 0, 0x40, 0, 0, 0, 0x40, 0, 0xC4, 0, 0, 0, 0xC4, 0, 0, 0, 7, 0, 0, 0,
    4, 0, 0, 0, 0x6D, 0, 0, 0, 0x10, 0, 0x40, 0, 0x20, 0, 0x40, 0, 0, 0, 0x40, 0, 2, 0, 0, 0, 4,
    0, 0x40, 0, 0, 0, 0, 0, 0, 0, 0, 0, 0, 0, 0, 0, 0, 0, 0, 0, 0, 0, 0, 0, 0, 0, 0, 0, 0, 0, 0,
    0, 0, 0, 0, 0, 0, 0, 0, 0, 0, 0, 0, 0, 0, 0, 0, 0, 0, 0, 0, 0, 0, 0, 0, 0, 0xC, 0, 0x40, 0,
    0x30, 0, 0x40, 0, 0, 0, 0, 0, 0, 0, 0, 0, 1, 0, 0, 0, 0x50, 0, 0x40, 0, 0, 0, 0, 0, 0, 0, 0,
    0, 0, 0, 0, 0, 0, 0, 0, 0, 0, 0, 0, 0, 0, 0, 0, 0, 0, 0, 0, 0, 0, 0, 0, 0, 1, 0, 0, 0, 0x4C,
    0, 0x40, 0, 0, 0, 0, 0, 0, 0, 0, 0, 0xFF, 0xFF, 0xFF, 0xFF, 0xFF, 0xFF, 0xFF, 0xFF, 8, 0, 0,
    0, 0xFC, 0xFF, 0xFF, 0xFF, 0x9C, 0, 0x40, 0, 0, 0, 0, 0, 1, 0, 0, 0, 0x8C, 0, 0x40, 0, 2, 0,
    0, 0, 0xA4, 0, 0x40, 0, 0, 0, 0, 0, 0, 0, 0, 0]⟩

def storedImage : Image where
  data := storedFile
  container := .elf
  machine := .x86
  width := .bits32
  base := 0x3FFFAC
  segments := [⟨"LOAD0", 84, 196, 0x400000, 196, ⟨true, true, true⟩⟩]
  isDumped := false

def storedModule : CodeGenModule := ⟨0x40000C, "m", [0x400010, 0x400020]⟩

def storedCode : CodeRegistration where
  address := 0x400054
  slots := Release.v27_0.codeRegistrationSlots.zip
    [0, 0, 1, 0x400050, 0, 0, 0, 0, 0, 0, 0, 0, 1, 0x40004C]
  modules := [storedModule]
  genericMethodPointers := #[0x400030]

def storedMetadata : MetadataRegistration where
  address := 0x4000AC
  slots := Release.v27_0.metadataRegistrationSlots.zip [1, 0x40008C, 2, 0x4000A4, 0, 0]
  genericMethodTable := [⟨0, 0, [0, 0, -1, -1]⟩]
  fieldOffsets := #[0x40009C, 0]

set_option maxRecDepth 8000 in
theorem load_storedFile :
    (Image.load formatParsers storedFile none).outcome.1 = .ok storedImage := by
  have hdeclared : Elf.declaration formatParsers storedFile =
      .ok ⟨.x86, .bits32, 0x3FFFAC, [⟨"LOAD0", 84, 196, 0x400000, 196, ⟨true, true, true⟩⟩]⟩ := by
    cbv
  exact Image.load_eq_ok_iff.mpr ⟨.elf, _, by cbv, hdeclared, by cbv⟩

theorem storesCode_storedImage : storedImage.StoresCode .v27_0 storedCode where
  stands := ⟨rfl, by decide +kernel⟩
  count := rfl
  directory := by decide +kernel
  modules := by
    rw [storedCode, List.forall_mem_singleton]
    exact ⟨Release.v27_0.codeGenModuleSlots.zip
        [0x400000, 2, 0x400004, 0, 0, 0, 0, 0, 0, 0, 0, 0, 0, 0, 0, 0],
      ⟨rfl, by decide +kernel⟩, by decide +kernel, by decide +kernel, by decide, rfl,
      by decide +kernel⟩
  names := List.nodup_singleton _
  genericCount := rfl
  genericPointers := by decide +kernel

theorem storesMetadata_storedImage : storedImage.StoresMetadata .v27_0 storedMetadata where
  stands := ⟨rfl, by decide +kernel⟩
  tableCount := rfl
  entries := by
    rw [storedMetadata, List.forall_mem_singleton]
    exact ⟨by decide, rfl⟩
  table := by decide +kernel
  offsetsCount := rfl
  fieldOffsets := by decide +kernel

theorem locate_storedImage :
    let hints : Hints := { code := some 0x400054, metadata := some 0x4000AC }
    (locate formatParsers storedImage (Scan.bareGraph #[] #[]) hints).outcome.1 =
        .ok { code := some storedCode, metadata := some storedMetadata, issues := [] } ∧
      storedImage.memory.readInts 0x40009C 2 "field_offsets" = .ok [8, -4] := by
  intro hints
  have hstores : storedImage.StoresInts 0x40009C [8, -4] := by decide +kernel
  have harrays : List.Forall₂ storedImage.StoresOffsets [some [8, -4], none]
      storedMetadata.fieldOffsets.toList := .cons hstores (.cons rfl .nil)
  obtain ⟨hanswers, -, hfound, hoffsets⟩ :=
    @locate_of_stores storedImage formatParsers storedFile none (Scan.bareGraph #[] #[]) hints
      storedCode storedMetadata load_storedFile storesCode_storedImage storesMetadata_storedImage
      _ harrays rfl (by decide) rfl (by decide)
  obtain ⟨found, hlocate⟩ := hanswers.mpr fun _ _ hmachO => by cases hmachO
  obtain rfl := hfound found hlocate
  exact ⟨hlocate, (List.forall₂_cons.mp hoffsets).1⟩

end Registrations

end TypeAtlas
