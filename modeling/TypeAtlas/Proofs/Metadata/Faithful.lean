import TypeAtlas.Proofs.Metadata.Reading
import TypeAtlas.Proofs.Metadata.Records

namespace TypeAtlas

namespace Strings

variable {strings : Strings} {offset : Int}

/-- The string at an offset can be read. Either the offset stands for no string, or the string ends
before the first zero byte behind its start, which lies in the table. -/
def Readable (strings : Strings) (offset : Int) : Prop :=
  (offset = -1 ∧ strings.get offset = .ok "") ∨
    ∃ n stop : Nat, offset = n ∧ strings.start + n ≤ stop ∧
      stop < strings.start + strings.size ∧ stop < strings.data.size ∧
      Bytes.byteAt strings.data stop = 0 ∧
      (∀ place, strings.start + n ≤ place → place < stop →
        Bytes.byteAt strings.data place ≠ 0) ∧
      strings.get offset =
        .ok (Text.decode (strings.data.extract (strings.start + n) stop).toList)

theorem stop?_eq_some_iff {stop : Nat} : strings.stop? offset = some stop ↔
    ∃ n : Nat, offset = n ∧ n < strings.size ∧
      Bytes.terminator? strings.data (strings.start + n) (strings.size - n) = some stop := by
  unfold stop?
  cases offset with
  | negSucc n =>
      simp only [reduceCtorEq, false_iff, not_exists]
      rintro m ⟨hm, -⟩
      cases hm
  | ofNat n => simp

theorem contains_of_zero {data : ByteArray} {start size n place : Nat} (hn : n < size)
    (hlow : start + n ≤ place) (hhigh : place < start + size) (hin : place < data.size)
    (hzero : Bytes.byteAt data place = 0) : Strings.contains ⟨data, start, size⟩ n = true := by
  have hterminated : (Bytes.terminator? data (start + n) (size - n)).isSome = true :=
    Bytes.terminator?_isSome_iff.mpr ⟨place, hlow, by omega, hin, hzero⟩
  obtain ⟨stop, hstop⟩ := Option.isSome_iff_exists.mp hterminated
  rw [contains, stop?_eq_some_iff.mpr ⟨n, rfl, hn, hstop⟩, Option.isSome_some, Bool.or_true]

theorem readable_of_contains (h : strings.contains offset = true) : strings.Readable offset := by
  unfold contains at h
  rw [Bool.or_eq_true, beq_iff_eq] at h
  rcases h with rfl | hsome
  · exact Or.inl ⟨rfl, rfl⟩
  · obtain ⟨stop, hstop⟩ := Option.isSome_iff_exists.mp hsome
    obtain ⟨n, rfl, hn, hterminator⟩ := stop?_eq_some_iff.mp hstop
    obtain ⟨hle, hlt, hin, hzero, hfirst⟩ := Bytes.terminator?_eq_some_iff.mp hterminator
    refine Or.inr ⟨n, stop, rfl, hle, by omega, hin, hzero, hfirst, ?_⟩
    have hsomeString : (n : Int) ≠ noString := by
      unfold noString
      omega
    rw [get, if_neg hsomeString, hstop, Int.toNat_natCast]

end Strings

namespace Metadata

variable {data : ByteArray} {override : Option Double} {metadata : Metadata} {table : Table}

/-- The tables of a blob as they have been read. They lie where the header of the blob declares
them. The rows of a table fill its range, and writing them gives its bytes. Every name can be read,
and every string literal lies in the literal data. -/
structure Faithful (data : ByteArray) (metadata : Metadata) : Prop where
  source : metadata.data = data
  declared : metadata.header.tables = Header.declaredTables data metadata.release
  inside : ∀ entry ∈ metadata.header.tables, entry.2.stop ≤ data.size
  sizes : ∀ table ∈ metadata.release.recordTables,
    (metadata.table table).size * metadata.release.recordWidth table =
      (metadata.header.span table).size
  rewritten : ∀ table ∈ metadata.release.recordTables,
    ((metadata.table table).toList.flatMap
      (Record.write (metadata.release.fieldsOf table))).toByteArray = metadata.blob table
  names : ∀ table, ∀ record ∈ metadata.table table, ∀ name ∈ Release.stringFields table,
    name ∈ (metadata.release.fieldsOf table).map Field.name ∧
      metadata.strings.Readable (record.value (metadata.release.fieldsOf table) name)
  literals : ∀ record ∈ metadata.table .stringLiterals,
    0 ≤ record.value (metadata.release.fieldsOf .stringLiterals) "data_index" ∧
      record.value (metadata.release.fieldsOf .stringLiterals) "data_index" +
        record.value (metadata.release.fieldsOf .stringLiterals) "length" ≤
          (metadata.blob .stringLiteralData).size

theorem count_mul_width_of_read (h : (read data override).outcome.1 = .ok metadata)
    (htable : table ∈ metadata.release.recordTables) :
    metadata.header.count table * metadata.release.recordWidth table =
      (metadata.header.span table).size := by
  obtain ⟨hmem, hblob⟩ := Release.mem_recordTables_iff.mp htable
  exact Nat.div_mul_cancel ((sound_span_of_read h hmem).even hblob)

theorem rewritten_of_read (h : (read data override).outcome.1 = .ok metadata)
    (htable : table ∈ metadata.release.recordTables) :
    ((metadata.table table).toList.flatMap
      (Record.write (metadata.release.fieldsOf table))).toByteArray = metadata.blob table := by
  have hcount := count_mul_width_of_read h htable
  have hfits : (metadata.header.span table).offset +
      metadata.header.count table * metadata.release.recordWidth table ≤ data.size := by
    rw [hcount]
    exact (sound_span_of_read h (List.mem_of_mem_filter htable)).inside
  have hmatch := Bytes.matchesAt_iff_slice_eq.mp (Record.matchesAt_readAll hfits)
  rw [Record.length_flatMap_readAll] at hmatch
  rw [table_of_read h htable, blob, data_of_read h, ← hcount]
  exact hmatch.symm

theorem size_blob_of_read (h : (read data override).outcome.1 = .ok metadata)
    (htable : table ∈ metadata.release.headerTables) :
    (metadata.blob table).size = (metadata.header.span table).size := by
  have hinside : (metadata.header.span table).offset + (metadata.header.span table).size ≤
      data.size := (sound_span_of_read h htable).inside
  rw [blob, data_of_read h, Bytes.slice, ByteArray.size_extract]
  omega

theorem faithful_of_read (h : (read data override).outcome.1 = .ok metadata) :
    Faithful data metadata := by
  obtain ⟨hheader, hrefers, -⟩ := read_eq_ok_iff.mp h
  obtain ⟨hdeclared, hsound⟩ := Header.sound_of_read hheader
  constructor
  case source => exact data_of_read h
  case declared => exact hdeclared
  case inside => exact fun entry hentry => (hsound entry hentry).inside
  case sizes =>
    intro table htable
    rw [table_of_read h htable, declaredRows, Record.size_readAll]
    exact count_mul_width_of_read h htable
  case rewritten => exact fun table htable => rewritten_of_read h htable
  case names =>
    intro table record hrecord name hname
    have htable := mem_recordTables_of_mem_table h hrecord
    rw [table_of_read h htable] at hrecord
    refine ⟨Release.stringFields_subset _ _ hname, ?_⟩
    rw [strings, data_of_read h]
    exact Strings.readable_of_contains ((hrefers table htable).names record hrecord name hname)
  case literals =>
    intro record hrecord
    have htable := mem_recordTables_of_mem_table h hrecord
    have hliterals : Table.stringLiteralData ∈ metadata.release.headerTables := by
      simp [Release.headerTables]
    rw [table_of_read h htable] at hrecord
    rw [size_blob_of_read h hliterals]
    exact (hrefers .stringLiterals htable).literals rfl record hrecord

/-- Reading a blob ends in one of four kinds of fault, or in metadata that is faithful to it. -/
theorem fault_or_faithful_of_read (data : ByteArray) (override : Option Double) :
    (∃ fault, (read data override).outcome.1 = .error fault ∧
        fault.kind ∈ Fault.Kind.ofMetadata) ∨
      ∃ metadata, (read data override).outcome.1 = .ok metadata ∧ Faithful data metadata := by
  cases h : (read data override).outcome.1 with
  | error fault => exact Or.inl ⟨fault, rfl, kind_of_read h⟩
  | ok metadata => exact Or.inr ⟨metadata, rfl, faithful_of_read h⟩

end Metadata

end TypeAtlas
