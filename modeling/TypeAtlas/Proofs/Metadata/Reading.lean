import TypeAtlas.Proofs.Bytes.Places
import TypeAtlas.Proofs.Metadata.Detection

namespace TypeAtlas.Metadata

open Logged

variable {data : ByteArray} {header : Header} {table : Table} {tables : List Table}
  {fields : List Field} {strings : Strings} {index dataSize : Nat} {record : Record}
  {records : List Record} {names : List String} {rows : Array Record}
  {found : List (Table × Array Record)} {fault : Fault} {override : Option Double}
  {metadata : Metadata}

section Checks

variable {check : Nat → Record → Except Fault Unit}

theorem forRecords_eq_ok_iff {accepts : Record → Prop}
    (hcheck : ∀ index record, check index record = .ok () ↔ accepts record) :
    forRecords check index records = .ok () ↔ ∀ record ∈ records, accepts record := by
  induction records generalizing index with
  | nil => simp [forRecords]
  | cons record records ih =>
      rw [forRecords, check_bind_eq_ok_iff, hcheck, ih, List.forall_mem_cons]

theorem exists_of_forRecords (h : forRecords check index records = .error fault) :
    ∃ index record, check index record = .error fault := by
  induction records generalizing index with
  | nil => cases h
  | cons record records ih =>
      rcases bind_eq_error h with hfirst | ⟨_, -, hrest⟩
      · exact ⟨index, record, hfirst⟩
      · exact ih hrest

theorem checkNames_eq_ok_iff : checkNames fields strings table index record names = .ok () ↔
    ∀ name ∈ names, strings.contains (record.value fields name) = true := by
  induction names with
  | nil => simp [checkNames]
  | cons name names ih =>
      rw [checkNames, List.forall_mem_cons]
      split
      · next hname => rw [ih, and_iff_right hname]
      · next hname => simp [hname]

theorem forRecords_checkNames_eq_ok_iff :
    forRecords (fun index record => checkNames fields strings table index record names) index
        records = .ok () ↔
      ∀ record ∈ records, ∀ name ∈ names, strings.contains (record.value fields name) = true :=
  forRecords_eq_ok_iff fun _ _ => checkNames_eq_ok_iff

theorem kind_of_checkNames
    (h : checkNames fields strings table index record names = .error fault) :
    fault.kind = .malformedMetadata := by
  induction names with
  | nil => cases h
  | cons name names ih =>
      rw [checkNames] at h
      split at h
      · exact ih h
      · obtain rfl := Except.error.inj h
        rfl

theorem checkLiteral_eq_ok_iff : checkLiteral fields dataSize index record = .ok () ↔
    0 ≤ record.value fields "data_index" ∧
      record.value fields "data_index" + record.value fields "length" ≤ dataSize := by
  unfold checkLiteral
  dsimp only
  split
  · next h =>
      simp only [reduceCtorEq, false_iff]
      omega
  · next h =>
      simp only [true_iff]
      omega

theorem forRecords_checkLiteral_eq_ok_iff :
    forRecords (checkLiteral fields dataSize) index records = .ok () ↔
      ∀ record ∈ records, 0 ≤ record.value fields "data_index" ∧
        record.value fields "data_index" + record.value fields "length" ≤ dataSize :=
  forRecords_eq_ok_iff fun _ _ => checkLiteral_eq_ok_iff

theorem kind_of_checkLiteral (h : checkLiteral fields dataSize index record = .error fault) :
    fault.kind = .malformedMetadata := by
  unfold checkLiteral at h
  dsimp only at h
  split at h
  · obtain rfl := Except.error.inj h
    rfl
  · cases h

end Checks

section Tables

/-- The rows that a header declares for a table. -/
def declaredRows (data : ByteArray) (header : Header) (table : Table) : Array Record :=
  Record.readAll (header.release.fieldsOf table) data (header.span table).offset
    (header.count table)

/-- The declared rows of a table refer to strings, and if they are string literals, to literal data
that is there. -/
structure Refers (data : ByteArray) (header : Header) (table : Table) : Prop where
  names : ∀ record ∈ declaredRows data header table, ∀ name ∈ Release.stringFields table,
    (stringsOf data header).contains (record.value (header.release.fieldsOf table) name) = true
  literals : table = .stringLiterals → ∀ record ∈ declaredRows data header table,
    0 ≤ record.value (header.release.fieldsOf table) "data_index" ∧
      record.value (header.release.fieldsOf table) "data_index" +
        record.value (header.release.fieldsOf table) "length" ≤
          (header.span .stringLiteralData).size

theorem readTable_eq_ok_iff : readTable data header table = .ok rows ↔
    Refers data header table ∧ declaredRows data header table = rows := by
  unfold readTable
  dsimp only
  rw [check_bind_eq_ok_iff, ite_check_bind_eq_ok_iff,
    forRecords_checkNames_eq_ok_iff, forRecords_checkLiteral_eq_ok_iff]
  simp only [pure, Except.pure, Except.ok.injEq, Array.mem_toList_iff, ← and_assoc]
  exact and_congr_left fun _ => ⟨fun h => ⟨h.1, h.2⟩, fun h => ⟨h.names, h.literals⟩⟩

theorem kind_of_readTable (h : readTable data header table = .error fault) :
    fault.kind = .malformedMetadata := by
  unfold readTable at h
  rcases bind_eq_error h with hnames | ⟨_, -, h⟩
  · obtain ⟨_, _, hcheck⟩ := exists_of_forRecords hnames
    exact kind_of_checkNames hcheck
  · rcases ite_check_bind_eq_error h with hliterals | h
    · obtain ⟨_, _, hcheck⟩ := exists_of_forRecords hliterals
      exact kind_of_checkLiteral hcheck
    · cases h

theorem readTables_eq_ok_iff : readTables data header tables = .ok found ↔
    (∀ table ∈ tables, Refers data header table) ∧
      tables.map (fun table => (table, declaredRows data header table)) = found := by
  induction tables generalizing found with
  | nil => simp [readTables]
  | cons table tables ih =>
      rw [List.forall_mem_cons, List.map_cons]
      constructor
      · intro h
        obtain ⟨rows, hrows, h⟩ := bind_eq_ok h
        obtain ⟨rest, hrest, h⟩ := bind_eq_ok h
        obtain rfl := Except.ok.inj h
        obtain ⟨hrefers, rfl⟩ := readTable_eq_ok_iff.mp hrows
        obtain ⟨hall, rfl⟩ := ih.mp hrest
        exact ⟨⟨hrefers, hall⟩, rfl⟩
      · rintro ⟨⟨hrefers, hall⟩, rfl⟩
        rw [readTables, readTable_eq_ok_iff.mpr ⟨hrefers, rfl⟩, ih.mpr ⟨hall, rfl⟩]
        rfl

theorem kind_of_readTables (h : readTables data header tables = .error fault) :
    fault.kind = .malformedMetadata := by
  induction tables with
  | nil => cases h
  | cons table tables ih =>
      rcases bind_eq_error h with hfirst | ⟨_, -, h⟩
      · exact kind_of_readTable hfirst
      · rcases bind_eq_error h with hrest | ⟨_, -, h⟩
        · exact ih hrest
        · cases h

end Tables

section Blob

theorem outcome_read (data : ByteArray) (override : Option Double) :
    (read data override).outcome.1 = do
      let header ← (Header.read data override).outcome.1
      let tables ← readTables data header header.release.recordTables
      return { data, header, tables } := by
  unfold read
  refine (outcome_bind fun _ => (appends_ofExcept _).bind fun _ => (appends_write _).bind fun _ =>
    appends_pure _).trans ?_
  congr 1
  funext header
  cases readTables data header header.release.recordTables <;> rfl

theorem read_eq_ok_iff : (read data override).outcome.1 = .ok metadata ↔
    (Header.read data override).outcome.1 = .ok metadata.header ∧
      (∀ table ∈ metadata.release.recordTables, Refers data metadata.header table) ∧
        metadata = ⟨data, metadata.header, metadata.release.recordTables.map fun table =>
          (table, declaredRows data metadata.header table)⟩ := by
  rw [outcome_read]
  constructor
  · intro h
    obtain ⟨header, hheader, h⟩ := bind_eq_ok h
    obtain ⟨tables, htables, h⟩ := bind_eq_ok h
    obtain rfl := Except.ok.inj h
    obtain ⟨hrefers, rfl⟩ := readTables_eq_ok_iff.mp htables
    exact ⟨hheader, hrefers, rfl⟩
  · rintro ⟨hheader, hrefers, hmetadata⟩
    rw [hheader]
    change (readTables data metadata.header metadata.release.recordTables >>= _) = _
    rw [readTables_eq_ok_iff.mpr ⟨hrefers, rfl⟩]
    exact congrArg Except.ok hmetadata.symm

theorem data_of_read (h : (read data override).outcome.1 = .ok metadata) :
    metadata.data = data :=
  congrArg Metadata.data (read_eq_ok_iff.mp h).2.2

theorem table_of_read (h : (read data override).outcome.1 = .ok metadata)
    (htable : table ∈ metadata.release.recordTables) :
    metadata.table table = declaredRows data metadata.header table := by
  have htables := congrArg Metadata.tables (read_eq_ok_iff.mp h).2.2
  rw [Metadata.table, htables, List.lookup_graph _ htable]
  rfl

theorem table_of_not_mem (h : (read data override).outcome.1 = .ok metadata)
    (htable : table ∉ metadata.release.recordTables) : metadata.table table = #[] := by
  have htables := congrArg Metadata.tables (read_eq_ok_iff.mp h).2.2
  have hnone : metadata.tables.lookup table = none := by
    rw [htables, List.lookup_eq_none_iff]
    intro entry hentry
    obtain ⟨other, hother, rfl⟩ := List.mem_map.mp hentry
    rw [bne_iff_ne]
    rintro rfl
    exact htable hother
  rw [Metadata.table, hnone]
  rfl

theorem mem_recordTables_of_mem_table (h : (read data override).outcome.1 = .ok metadata)
    (hrecord : record ∈ metadata.table table) : table ∈ metadata.release.recordTables := by
  by_contra hmissing
  rw [table_of_not_mem h hmissing] at hrecord
  exact Array.not_mem_empty _ hrecord

theorem sound_span_of_read (h : (read data override).outcome.1 = .ok metadata)
    (htable : table ∈ metadata.release.headerTables) :
    Header.Sound metadata.release data.size table (metadata.header.span table) := by
  have hheader := (read_eq_ok_iff.mp h).1
  exact (Header.sound_of_read hheader).2 _ (Header.mem_tables_of_read hheader htable)

theorem kind_of_read (h : (read data override).outcome.1 = .error fault) :
    fault.kind ∈ Fault.Kind.ofMetadata := by
  rw [outcome_read] at h
  rcases bind_eq_error h with hheader | ⟨header, -, h⟩
  · exact Header.kind_of_read hheader
  · rcases bind_eq_error h with htables | ⟨tables, -, h⟩
    · rw [kind_of_readTables htables]
      decide
    · cases h

end Blob

theorem size_span_lt {data : ByteArray} {header : Header} {release : Release}
    (h : header.tables = Header.declaredTables data release) (table : Table) :
    (header.span table).size < 2 ^ 32 := by
  unfold Header.span
  cases hlookup : header.tables.lookup table with
  | none => decide
  | some span =>
      obtain ⟨front, back, htables, -⟩ := List.lookup_eq_some_iff.mp hlookup
      have hmem : (table, span) ∈ Header.declaredTables data release := by
        rw [← h, htables]
        simp
      obtain ⟨⟨declared, slot⟩, -, hspan⟩ := List.mem_map.mp hmem
      obtain ⟨rfl, rfl⟩ := Prod.mk.inj hspan
      exact Bytes.littleEndian_lt data (12 + 8 * slot) 4

theorem size_table_lt {data : ByteArray} {override : Option Double} {metadata : Metadata}
    (h : (read data override).outcome.1 = .ok metadata) (table : Table) :
    (metadata.table table).size < 2 ^ 32 := by
  by_cases htable : table ∈ metadata.release.recordTables
  · have hdeclared := (Header.sound_of_read (read_eq_ok_iff.mp h).1).1
    have hspan := size_span_lt hdeclared table
    have hcount : metadata.header.count table ≤ (metadata.header.span table).size :=
      Nat.div_le_self _ _
    rw [table_of_read h htable, declaredRows, Record.size_readAll]
    omega
  · rw [table_of_not_mem h htable]
    decide

end TypeAtlas.Metadata
