import TypeAtlas.Metadata.Layout
import TypeAtlas.Proofs.Bytes.Places

namespace TypeAtlas

namespace Bytes

variable {width value : Nat}

theorem two_pow_eq (width : Nat) : Nat.pow 2 (8 * width) = Nat.pow 256 width :=
  Nat.pow_mul 2 8 width

theorem two_mul_half (hwidth : 0 < width) :
    2 * Nat.pow 2 (8 * width - 1) = Nat.pow 256 width := by
  obtain ⟨bits, hbits⟩ : ∃ bits, 8 * width = bits + 1 := ⟨8 * width - 1, by omega⟩
  rw [← two_pow_eq, hbits, Nat.add_sub_cancel]
  exact (Nat.pow_succ' (m := 2)).symm

theorem toSigned_emod {number : Int} (hwidth : 0 < width)
    (hleast : -(Nat.pow 2 (8 * width - 1) : Int) ≤ number)
    (hbound : number < Nat.pow 2 (8 * width - 1)) :
    toSigned (number % (Nat.pow 256 width : Int)) width = number := by
  have hhalf := two_mul_half hwidth
  have hfull := two_pow_eq width
  unfold toSigned
  by_cases hnegative : number < 0
  · have hbits : number % (Nat.pow 256 width : Int) = number + Nat.pow 256 width := by
      rw [← Int.add_emod_right, Int.emod_eq_of_lt (by omega) (by omega)]
    rw [if_neg (by omega), hbits]
    omega
  · have hbits : number % (Nat.pow 256 width : Int) = number :=
      Int.emod_eq_of_lt (by omega) (by omega)
    rw [hbits, if_pos hbound]

theorem toSigned_emod_eq (hvalue : value < Nat.pow 256 width) :
    toSigned value width % (Nat.pow 256 width : Int) = value := by
  have hfull := two_pow_eq width
  unfold toSigned
  split
  · exact Int.emod_eq_of_lt (by omega) (by omega)
  · rw [hfull, Int.sub_emod_right]
    exact Int.emod_eq_of_lt (by omega) (by omega)

end Bytes

variable {data : ByteArray} {place : Nat}

namespace Field

variable {field : Field} {value : Int}

instance (field : Field) : DecidablePred field.Holds :=
  fun _ => inferInstanceAs (Decidable (_ ∧ _))

theorem length_write (field : Field) (value : Int) : (field.write value).length = field.width :=
  Bytes.length_ofNat _ _

theorem read_of_matchesAt (hwidth : 0 < field.width) (hvalue : field.Holds value)
    (h : Bytes.matchesAt data place (field.write value) = true) :
    field.read data place = value := by
  obtain ⟨hleast, hbound⟩ := hvalue
  have hfull : 0 < Nat.pow 256 field.width := Nat.pow_pos (by decide)
  have hlow : 0 ≤ value % (Nat.pow 256 field.width : Int) := Int.emod_nonneg _ (by omega)
  have hlt : value % (Nat.pow 256 field.width : Int) < Nat.pow 256 field.width :=
    Int.emod_lt_of_pos _ (by omega)
  have hword : (Bytes.littleEndian data place field.width : Int) =
      value % (Nat.pow 256 field.width : Int) := by
    rw [Bytes.littleEndian_of_matchesAt ((Int.toNat_lt hlow).mpr hlt) h, Int.toNat_of_nonneg hlow]
  unfold read least bound at *
  dsimp only
  rw [hword]
  cases hsigned : field.signed with
  | true =>
      rw [hsigned] at hleast hbound
      exact Bytes.toSigned_emod hwidth hleast hbound
  | false =>
      rw [hsigned] at hleast hbound
      rw [Bytes.two_pow_eq] at hbound
      exact Int.emod_eq_of_lt hleast hbound

theorem matchesAt_read (h : place + field.width ≤ data.size) :
    Bytes.matchesAt data place (field.write (field.read data place)) = true := by
  have hlt : Bytes.littleEndian data place field.width < Nat.pow 256 field.width :=
    Bytes.littleEndian_lt data place field.width
  have hword : (field.read data place % (Nat.pow 256 field.width : Int)).toNat =
      Bytes.littleEndian data place field.width := by
    unfold read
    dsimp only
    split
    · rw [Bytes.toSigned_emod_eq hlt, Int.toNat_natCast]
    · rw [Int.emod_eq_of_lt (by omega) (by omega), Int.toNat_natCast]
  rw [write, hword]
  exact Bytes.matchesAt_littleEndian h

end Field

namespace Record

variable {fields : List Field} {record : Record} {records : List Record} {count : Nat}

/-- A record has a value for each field, and each value fits its field. -/
def Holds (fields : List Field) (record : Record) : Prop :=
  List.Forall₂ Field.Holds fields record

instance (fields : List Field) (record : Record) : Decidable (Holds fields record) :=
  inferInstanceAs (Decidable (List.Forall₂ _ _ _))

theorem length_write (h : record.length = fields.length) :
    (write fields record).length = width fields := by
  induction fields generalizing record with
  | nil => cases record <;> rfl
  | cons field fields ih =>
      cases record with
      | nil => cases h
      | cons value values =>
          rw [write, List.length_append, Field.length_write, ih (Nat.succ.inj h)]
          rfl

theorem read_of_matchesAt (hwidth : ∀ field ∈ fields, 0 < field.width)
    (hrecord : Holds fields record)
    (h : Bytes.matchesAt data place (write fields record) = true) :
    read fields data place = record := by
  induction hrecord generalizing place with
  | nil => rfl
  | @cons field value fields values hvalue _ ih =>
      rw [List.forall_mem_cons] at hwidth
      rw [write, Bytes.matchesAt_append, Bool.and_eq_true, Field.length_write] at h
      rw [read, Field.read_of_matchesAt hwidth.1 hvalue h.1, ih hwidth.2 h.2]

theorem matchesAt_read (h : place + width fields ≤ data.size) :
    Bytes.matchesAt data place (write fields (read fields data place)) = true := by
  induction fields generalizing place with
  | nil => rfl
  | cons field fields ih =>
      change place + (field.width + width fields) ≤ data.size at h
      rw [read, write, Bytes.matchesAt_append, Bool.and_eq_true, Field.length_write]
      exact ⟨Field.matchesAt_read (by omega), ih (by omega)⟩

/-- The rows of a table that have been written are read back. -/
theorem readAll_of_matchesAt (hwidth : ∀ field ∈ fields, 0 < field.width)
    (hrecords : ∀ record ∈ records, Holds fields record)
    (h : Bytes.matchesAt data place (records.flatMap (write fields)) = true) :
    readAll fields data place records.length = records.toArray := by
  have hlength : ∀ record ∈ records, (write fields record).length = width fields :=
    fun record hrecord => length_write (hrecords record hrecord).length_eq.symm
  refine Array.ext (size_readAll _ _ _ _) fun row hrow _ => ?_
  rw [size_readAll] at hrow
  have hrow' : records[row]? = some records[row] := List.getElem?_eq_getElem hrow
  have hmatch := Bytes.matchesAt_row hlength h hrow'
  simpa [readAll] using read_of_matchesAt hwidth (hrecords _ (List.getElem_mem hrow)) hmatch

theorem toList_readAll (fields : List Field) (data : ByteArray) (place count : Nat) :
    (readAll fields data place count).toList =
      (List.range count).map fun row => read fields data (place + row * width fields) := by
  simp [readAll]

theorem length_flatMap_readAll (fields : List Field) (data : ByteArray) (place count : Nat) :
    ((readAll fields data place count).toList.flatMap (write fields)).length =
      count * width fields := by
  rw [Bytes.length_flatMap_of_length fun record hrecord => ?_, Array.length_toList, size_readAll]
  rw [toList_readAll] at hrecord
  obtain ⟨row, -, rfl⟩ := List.mem_map.mp hrecord
  exact length_write (length_read _ _ _)

theorem matchesAt_readAll (h : place + count * width fields ≤ data.size) :
    Bytes.matchesAt data place
      ((readAll fields data place count).toList.flatMap (write fields)) = true := by
  induction count with
  | zero => simp [readAll, Bytes.matchesAt]
  | succ count ih =>
      rw [Nat.succ_mul] at h
      have hlength := length_flatMap_readAll fields data place count
      rw [toList_readAll] at ih hlength ⊢
      rw [List.range_succ, List.map_append, List.flatMap_append, Bytes.matchesAt_append, hlength,
        Bool.and_eq_true]
      refine ⟨ih (by omega), ?_⟩
      simpa using matchesAt_read (by omega)

end Record

namespace Release

variable {release : Release} {table : Table}

theorem mem_recordTables_iff : table ∈ release.recordTables ↔
    table ∈ release.headerTables ∧ release.isBlob table = false := by
  rw [recordTables, List.mem_filter, Bool.not_eq_true']

theorem width_pos_of_mem_fieldsOf : ∀ field ∈ release.fieldsOf table, 0 < field.width := by
  cases release <;> cases table <;> decide

theorem stringFields_subset (release : Release) (table : Table) :
    Release.stringFields table ⊆ (release.fieldsOf table).map Field.name := by
  cases release <;> cases table <;> decide

end Release

end TypeAtlas
