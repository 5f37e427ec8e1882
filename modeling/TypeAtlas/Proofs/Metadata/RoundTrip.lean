import TypeAtlas.Metadata.Header
import TypeAtlas.Proofs.Metadata.Faithful
import TypeAtlas.Proofs.Metadata.Records

namespace TypeAtlas

/-- What a blob holds: the records of each table, and the bytes of each table of raw bytes. -/
structure Content where
  records : Table → List Record
  bytes : Table → List UInt8

namespace Content

variable {content : Content} {release : Release} {table : Table} {tables : List Table} {span : Span}
  {place : Nat} {data : ByteArray}

/-- The bytes of a table of a content. -/
def tableBytes (content : Content) (release : Release) (table : Table) : List UInt8 :=
  if release.isBlob table then content.bytes table
  else (content.records table).flatMap (Record.write (release.fieldsOf table))

/-- Bytes and the zero bytes behind them that fill up a multiple of four. -/
def padded (bytes : List UInt8) : List UInt8 :=
  bytes ++ List.replicate ((4 - bytes.length % 4) % 4) 0

/-- The bytes of some tables, each of which starts at a multiple of four. -/
def body (content : Content) (release : Release) (tables : List Table) : List UInt8 :=
  tables.flatMap fun table => padded (content.tableBytes release table)

/-- Where the tables of a body lie that starts at a place. -/
def spansFrom (content : Content) (release : Release) (place : Nat) :
    List Table → List (Table × Span)
  | [] => []
  | table :: tables =>
      (table, ⟨place, (content.tableBytes release table).length⟩) ::
        spansFrom content release (place + (padded (content.tableBytes release table)).length)
          tables

/-- Where the tables of a content lie in its blob. -/
def spans (content : Content) (release : Release) : List (Table × Span) :=
  content.spansFrom release release.headerSize release.headerTables

def writeSpan (entry : Table × Span) : List UInt8 :=
  Bytes.ofNat entry.2.offset 4 ++ Bytes.ofNat entry.2.size 4

/-- The blob of a content in the layout of a release. -/
def encode (content : Content) (release : Release) : List UInt8 :=
  Bytes.ofNat Header.expectedSanity 4 ++ Bytes.ofNat release.major 4 ++
    (content.spans release).flatMap writeSpan ++ content.body release release.headerTables

/-- An offset stands for no string, or a zero byte follows in the string table. -/
def HasString (content : Content) (offset : Int) : Prop :=
  offset = -1 ∨ (0 ≤ offset ∧ 0 ∈ (content.bytes .strings).drop offset.toNat)

instance (content : Content) (offset : Int) : Decidable (content.HasString offset) :=
  inferInstanceAs (Decidable (_ ∨ _))

/-- A content can be written in the layout of a release: the values fit their fields, names are
strings, string literals lie in the literal data, and the offsets of the tables fit the header. -/
structure Fits (content : Content) (release : Release) : Prop where
  records : ∀ table ∈ release.recordTables, ∀ record ∈ content.records table,
    Record.Holds (release.fieldsOf table) record
  names : ∀ table ∈ release.recordTables, ∀ record ∈ content.records table,
    ∀ name ∈ Release.stringFields table,
      content.HasString (record.value (release.fieldsOf table) name)
  literals : ∀ record ∈ content.records .stringLiterals,
    0 ≤ record.value (release.fieldsOf .stringLiterals) "data_index" ∧
      record.value (release.fieldsOf .stringLiterals) "data_index" +
        record.value (release.fieldsOf .stringLiterals) "length" ≤
          (content.bytes .stringLiteralData).length
  size : (content.encode release).length < 2 ^ 32

theorem map_fst_spansFrom (content : Content) (release : Release) (place : Nat)
    (tables : List Table) : (content.spansFrom release place tables).map Prod.fst = tables := by
  induction tables generalizing place with
  | nil => rfl
  | cons table tables ih => rw [spansFrom, List.map_cons, ih]

theorem length_writeSpan (entry : Table × Span) : (writeSpan entry).length = 8 := by
  rw [writeSpan, List.length_append, Bytes.length_ofNat, Bytes.length_ofNat]

/-- A table stands where it is declared, behind a place and before another one. -/
structure Stored (content : Content) (release : Release) (data : ByteArray) (start stop : Nat)
    (table : Table) (span : Span) : Prop where
  behind : start ≤ span.offset
  inside : span.stop ≤ stop
  size : span.size = (content.tableBytes release table).length
  bytes : Bytes.matchesAt data span.offset (content.tableBytes release table) = true

theorem stored_of_mem_spansFrom
    (h : Bytes.matchesAt data place (content.body release tables) = true)
    (hmem : (table, span) ∈ content.spansFrom release place tables) :
    content.Stored release data place (place + (content.body release tables).length) table
      span := by
  induction tables generalizing place with
  | nil => cases hmem
  | cons first tables ih =>
      rw [body, List.flatMap_cons, Bytes.matchesAt_append, Bool.and_eq_true] at h
      obtain ⟨hfirst, hrest⟩ := h
      rw [body, List.flatMap_cons, List.length_append]
      rcases List.mem_cons.mp hmem with heq | hmem
      · obtain ⟨rfl, rfl⟩ := Prod.mk.inj heq
        rw [padded, Bytes.matchesAt_append, Bool.and_eq_true] at hfirst
        refine ⟨le_refl _, ?_, rfl, hfirst.1⟩
        rw [Span.stop, padded, List.length_append]
        dsimp only
        omega
      · obtain ⟨hbehind, hinside, hsize, hbytes⟩ := ih hrest hmem
        unfold body at hinside
        exact ⟨by omega, by omega, hsize, hbytes⟩

end Content

namespace Content

variable {content : Content} {release : Release} {table : Table} {span : Span} {offset : Int}

/-- The blob of a content as a buffer. -/
def blob (content : Content) (release : Release) : ByteArray :=
  (content.encode release).toByteArray

/-- The header of the blob of a content. -/
def header (content : Content) (release : Release) : Header :=
  ⟨Header.expectedSanity, release.major, release, content.spans release⟩

section Header

theorem map_fst_spans (content : Content) (release : Release) :
    (content.spans release).map Prod.fst = release.headerTables :=
  map_fst_spansFrom _ _ _ _

theorem length_spans (content : Content) (release : Release) :
    (content.spans release).length = release.headerTables.length := by
  rw [← map_fst_spans content release, List.length_map]

theorem length_flatMap_writeSpan (content : Content) (release : Release) :
    ((content.spans release).flatMap writeSpan).length = release.headerTables.length * 8 := by
  rw [Bytes.length_flatMap_of_length fun entry _ => length_writeSpan entry, length_spans]

theorem size_blob (content : Content) (release : Release) :
    (content.blob release).size =
      release.headerSize + (content.body release release.headerTables).length := by
  rw [blob, List.size_toByteArray, encode, List.length_append, List.length_append,
    List.length_append, Bytes.length_ofNat, Bytes.length_ofNat, length_flatMap_writeSpan,
    Release.headerSize]
  omega

theorem matchesAt_blob (content : Content) (release : Release) :
    Bytes.matchesAt (content.blob release) 0 (Bytes.ofNat Header.expectedSanity 4) = true ∧
      Bytes.matchesAt (content.blob release) 4 (Bytes.ofNat release.major 4) = true ∧
      Bytes.matchesAt (content.blob release) 8
        ((content.spans release).flatMap writeSpan) = true ∧
      Bytes.matchesAt (content.blob release) release.headerSize
        (content.body release release.headerTables) = true := by
  have hall : Bytes.matchesAt (content.blob release) 0 (content.encode release) = true :=
    Bytes.matchesAt_toByteArray _
  simp only [encode, Bytes.matchesAt_append, List.length_append, Bytes.length_ofNat,
    length_flatMap_writeSpan, Bool.and_eq_true] at hall
  obtain ⟨⟨⟨hsanity, hmajor⟩, hspans⟩, hbody⟩ := hall
  have hplace : release.headerSize = 0 + (4 + 4 + release.headerTables.length * 8) := by
    rw [Release.headerSize]
    omega
  refine ⟨hsanity, hmajor, hspans, ?_⟩
  rw [hplace]
  exact hbody

theorem stored_of_mem_spans (hmem : (table, span) ∈ content.spans release) :
    content.Stored release (content.blob release) release.headerSize (content.blob release).size
      table span := by
  rw [size_blob]
  exact stored_of_mem_spansFrom (matchesAt_blob content release).2.2.2 hmem

theorem declaredTables_blob (hsize : (content.blob release).size < 2 ^ 32) :
    Header.declaredTables (content.blob release) release = content.spans release := by
  have hdirectory := (matchesAt_blob content release).2.2.1
  apply List.ext_getElem?
  intro slot
  rw [Header.declaredTables, List.getElem?_map, List.getElem?_zipIdx,
    ← map_fst_spans content release, List.getElem?_map]
  cases hget : (content.spans release)[slot]? with
  | none => rfl
  | some entry =>
      obtain ⟨table, span⟩ := entry
      have hinside := (stored_of_mem_spans (List.mem_of_getElem? hget)).inside
      have hstop : span.offset + span.size < 256 ^ 4 := hinside.trans_lt hsize
      have hoffset : span.offset < 256 ^ 4 := by omega
      have hspan : span.size < 256 ^ 4 := by omega
      have hmatch := Bytes.matchesAt_row (fun entry _ => length_writeSpan entry) hdirectory hget
      rw [writeSpan, Bytes.matchesAt_append, Bool.and_eq_true, Bytes.length_ofNat,
        Nat.mul_comm slot, Nat.add_right_comm] at hmatch
      have hreadOffset := Bytes.littleEndian_of_matchesAt hoffset hmatch.1
      have hreadSize := Bytes.littleEndian_of_matchesAt hspan hmatch.2
      simp only [Option.map_some, Nat.zero_add, hreadOffset, hreadSize]

theorem tableBytes_of_mem_recordTables (htable : table ∈ release.recordTables) :
    content.tableBytes release table =
      (content.records table).flatMap (Record.write (release.fieldsOf table)) := by
  have hblob := (Release.mem_recordTables_iff.mp htable).2
  rw [tableBytes, hblob, if_neg Bool.false_ne_true]

theorem size_span_of_stored {data : ByteArray} {start stop : Nat}
    (hfits : content.Fits release) (htable : table ∈ release.recordTables)
    (h : content.Stored release data start stop table span) :
    span.size = (content.records table).length * release.recordWidth table := by
  rw [h.size, tableBytes_of_mem_recordTables htable]
  apply Bytes.length_flatMap_of_length
  intro record hrecord
  exact Record.length_write (hfits.records table htable record hrecord).length_eq.symm

theorem sound_of_mem_spans (hfits : content.Fits release)
    (hmem : (table, span) ∈ content.spans release) :
    Header.Sound release (content.blob release).size table span := by
  have hstored := stored_of_mem_spans hmem
  refine ⟨hstored.inside, fun _ => hstored.behind, fun hblob => ?_⟩
  have htable : table ∈ release.headerTables := by
    rw [← map_fst_spans content release]
    exact List.mem_map_of_mem hmem
  have hrecords := Release.mem_recordTables_iff.mpr ⟨htable, hblob⟩
  rw [size_span_of_stored hfits hrecords hstored]
  exact Nat.dvd_mul_left _ _

theorem size_blob_lt (hfits : content.Fits release) : (content.blob release).size < 2 ^ 32 := by
  rw [blob, List.size_toByteArray]
  exact hfits.size

theorem headerSize_le_size_blob (content : Content) (release : Release) :
    release.headerSize ≤ (content.blob release).size := by
  rw [size_blob]
  exact Nat.le_add_right _ _

theorem sanity_blob (content : Content) (release : Release) :
    Bytes.littleEndian (content.blob release) 0 4 = Header.expectedSanity :=
  Bytes.littleEndian_of_matchesAt (by decide) (matchesAt_blob content release).1

theorem versionField_blob (content : Content) (release : Release) :
    Header.versionField (content.blob release) = release.major := by
  have hmajor := (matchesAt_blob content release).2.1
  rw [Header.versionField, Bytes.littleEndian_of_matchesAt (by cases release <;> decide) hmajor]
  cases release <;> decide

theorem readHeader_blob (hfits : content.Fits release) :
    (Header.read (content.blob release) (some release.value)).outcome.1 =
      .ok (content.header release) := by
  have hheader := headerSize_le_size_blob content release
  have hshort : ¬ (content.blob release).size < 8 := by
    rw [Release.headerSize] at hheader
    omega
  have hread : Header.readWith (content.blob release) Header.expectedSanity release.major release =
      .ok (content.header release) := by
    rw [Header.readWith_eq_ok_iff, declaredTables_blob (size_blob_lt hfits)]
    exact ⟨hheader, fun entry hentry => sound_of_mem_spans hfits hentry, rfl⟩
  rw [Header.outcome_read, if_neg hshort, sanity_blob, if_neg (not_not.mpr rfl),
    Header.outcome_chooseRelease_value, versionField_blob, ok_bind, hread]

end Header

section Tables

theorem stored_span (content : Content) (htable : table ∈ release.headerTables) :
    content.Stored release (content.blob release) release.headerSize (content.blob release).size
      table ((content.header release).span table) := by
  apply stored_of_mem_spans
  apply Header.mem_tables_span
  change table ∈ (content.spans release).map Prod.fst
  rwa [map_fst_spans]

theorem count_header (hfits : content.Fits release) (htable : table ∈ release.recordTables) :
    (content.header release).count table = (content.records table).length := by
  obtain ⟨hheader, hblob⟩ := Release.mem_recordTables_iff.mp htable
  have hsize := size_span_of_stored hfits htable (stored_span content hheader)
  rw [Header.count, hsize]
  exact Nat.mul_div_cancel _ (Release.recordWidth_pos hblob)

theorem declaredRows_blob (hfits : content.Fits release) (htable : table ∈ release.recordTables) :
    Metadata.declaredRows (content.blob release) (content.header release) table =
      (content.records table).toArray := by
  have hbytes := (stored_span content (List.mem_of_mem_filter htable)).bytes
  rw [tableBytes_of_mem_recordTables htable] at hbytes
  rw [Metadata.declaredRows, count_header hfits htable]
  exact Record.readAll_of_matchesAt Release.width_pos_of_mem_fieldsOf (hfits.records table htable)
    hbytes

theorem contains_of_hasString (h : content.HasString offset) :
    (Metadata.stringsOf (content.blob release) (content.header release)).contains offset =
      true := by
  have htable : Table.strings ∈ release.headerTables := by simp [Release.headerTables]
  have hstored := stored_span content htable
  unfold Metadata.stringsOf
  generalize (content.header release).span .strings = span at hstored ⊢
  have hsize : span.size = (content.bytes .strings).length := hstored.size
  rcases h with rfl | ⟨hoffset, hzero⟩
  · rfl
  · obtain ⟨n, rfl⟩ := Int.eq_ofNat_of_zero_le hoffset
    rw [Int.toNat_natCast] at hzero
    obtain ⟨i, hi, hbyte⟩ := List.mem_iff_getElem.mp hzero
    rw [List.length_drop] at hi
    rw [List.getElem_drop] at hbyte
    have hbytes : Bytes.matchesAt (content.blob release) span.offset (content.bytes .strings) =
        true := hstored.bytes
    obtain ⟨hin, hstands⟩ := Bytes.matchesAt_iff.mp hbytes (n + i) (by omega)
    rw [hbyte] at hstands
    have hn : n < span.size := by omega
    have hlow : span.offset + n ≤ span.offset + (n + i) := by omega
    have hhigh : span.offset + (n + i) < span.offset + span.size := by omega
    exact Strings.contains_of_zero hn hlow hhigh hin hstands

theorem refers_of_fits (hfits : content.Fits release) (htable : table ∈ release.recordTables) :
    Metadata.Refers (content.blob release) (content.header release) table := by
  have hrows := declaredRows_blob hfits htable
  constructor
  case names =>
    intro record hrecord name hname
    rw [hrows, List.mem_toArray] at hrecord
    exact contains_of_hasString (hfits.names table htable record hrecord name hname)
  case literals =>
    rintro rfl record hrecord
    rw [hrows, List.mem_toArray] at hrecord
    have hliterals : Table.stringLiteralData ∈ release.headerTables := by
      simp [Release.headerTables]
    rw [(stored_span content hliterals).size]
    exact hfits.literals record hrecord

/-- The tables of records of a content. -/
def tables (content : Content) (release : Release) : List (Table × Array Record) :=
  release.recordTables.map fun table => (table, (content.records table).toArray)

/-- The metadata that the blob of a content holds. -/
def metadata (content : Content) (release : Release) : Metadata where
  data := content.blob release
  header := content.header release
  tables := content.tables release

@[simp]
theorem data_metadata (content : Content) (release : Release) :
    (content.metadata release).data = content.blob release := by
  rw [metadata]

@[simp]
theorem header_metadata (content : Content) (release : Release) :
    (content.metadata release).header = content.header release := by
  rw [metadata]

@[simp]
theorem release_metadata (content : Content) (release : Release) :
    (content.metadata release).release = release := by
  rw [Metadata.release, header_metadata, header]

theorem read_blob (hfits : content.Fits release) :
    (Metadata.read (content.blob release) (some release.value)).outcome.1 =
      .ok (content.metadata release) := by
  rw [Metadata.read_eq_ok_iff]
  refine ⟨readHeader_blob hfits, fun table htable => refers_of_fits hfits htable, ?_⟩
  refine congrArg (Metadata.mk _ _) (List.map_congr_left fun table htable => ?_)
  rw [← declaredRows_blob hfits htable]
  rfl

theorem table_metadata (hfits : content.Fits release) (htable : table ∈ release.recordTables) :
    (content.metadata release).table table = (content.records table).toArray := by
  rw [Metadata.table_of_read (read_blob hfits) (by rwa [release_metadata]), header_metadata]
  exact declaredRows_blob hfits htable

theorem blob_metadata (content : Content) (htable : table ∈ release.headerTables)
    (hblob : release.isBlob table = true) :
    (content.metadata release).blob table = (content.bytes table).toByteArray := by
  obtain ⟨-, -, hsize, hbytes⟩ := stored_span content htable
  rw [tableBytes, if_pos hblob] at hsize hbytes
  rw [Metadata.blob, data_metadata, header_metadata, hsize]
  exact Bytes.matchesAt_iff_slice_eq.mp hbytes

/-- Metadata holds a content: the tables of records and those of raw bytes are its tables. -/
structure HeldBy (content : Content) (metadata : Metadata) : Prop where
  counts : ∀ table ∈ metadata.release.recordTables,
    metadata.header.count table = (content.records table).length
  records : ∀ table ∈ metadata.release.recordTables,
    metadata.table table = (content.records table).toArray
  bytes : ∀ table ∈ metadata.release.headerTables, metadata.release.isBlob table = true →
    metadata.blob table = (content.bytes table).toByteArray

/-- Reading the blob of a content with its release gives the content back. -/
theorem heldBy_of_read_encode (hfits : content.Fits release) :
    ∃ metadata, (Metadata.read (content.encode release).toByteArray
        (some release.value)).outcome.1 = .ok metadata ∧
      metadata.release = release ∧ content.HeldBy metadata := by
  refine ⟨content.metadata release, read_blob hfits, release_metadata content release, ?_⟩
  constructor
  case counts =>
    intro table htable
    rw [release_metadata] at htable
    rw [header_metadata, count_header hfits htable]
  case records =>
    intro table htable
    rw [release_metadata] at htable
    exact table_metadata hfits htable
  case bytes =>
    intro table htable hblob
    rw [release_metadata] at htable hblob
    exact blob_metadata content htable hblob

end Tables

/-- A module named m, a generic parameter without a name, a string literal and an address. -/
def smallContent : Content where
  records
    | .stringLiterals => [[2, 1]]
    | .genericParameters => [[0, -1, -1, 32767, 65535, 0]]
    | .images => [[0, -1, 0, 0, 0, 0, -1, 4294967295, 0, 0]]
    | .methodAddresses => [[18446744073709551615]]
    | _ => []
  bytes
    | .stringLiteralData => [0x61, 0x62, 0x63]
    | .strings => [0x6D, 0]
    | _ => []

theorem fits_smallContent : smallContent.Fits .v29_0 :=
  ⟨by decide, by decide, by decide, by decide +kernel⟩

theorem heldBy_smallContent : smallContent.Fits .v29_0 ∧
    ∃ metadata, (Metadata.read (smallContent.encode .v29_0).toByteArray
        (some Release.v29_0.value)).outcome.1 = .ok metadata ∧
      metadata.release = .v29_0 ∧ smallContent.HeldBy metadata :=
  ⟨fits_smallContent, heldBy_of_read_encode fits_smallContent⟩

end Content

end TypeAtlas
