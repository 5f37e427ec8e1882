import TypeAtlas.Proofs.Session.Stages

namespace TypeAtlas

open Logged

/-- The kinds of fault that reading a blob may end in. -/
def Fault.Kind.ofMetadata : List Fault.Kind :=
  [unsupportedFormat, unsupportedMetadataVersion, truncatedMetadata, malformedMetadata]

namespace Header

variable {data : ByteArray} {release : Release} {size : Nat} {table : Table} {span : Span}
  {tables : List (Table × Span)} {sanity : Nat} {version : Int} {override : Option Double}
  {header : Header} {fault : Fault}

/-- A declared table lies in the blob, behind the header unless it is empty, and ends with a
record. -/
structure Sound (release : Release) (size : Nat) (table : Table) (span : Span) : Prop where
  inside : span.stop ≤ size
  behind : 0 < span.size → release.headerSize ≤ span.offset
  even : release.isBlob table = false → release.recordWidth table ∣ span.size

theorem isUneven_iff : isUneven release table size = true ↔
    ¬ (release.isBlob table = false → release.recordWidth table ∣ size) := by
  rw [Nat.dvd_iff_mod_eq_zero]
  cases hblob : release.isBlob table <;> simp [isUneven, hblob]

theorem checkTable_eq_ok_iff :
    checkTable release size table span = .ok () ↔ Sound release size table span := by
  unfold checkTable
  constructor
  · intro h
    split at h
    · cases h
    · next hinside =>
        split at h
        · cases h
        · next hbehind =>
            split at h
            · cases h
            · next heven =>
                rw [isUneven_iff, not_not] at heven
                exact ⟨by omega, by omega, heven⟩
  · rintro ⟨hinside, hbehind, heven⟩
    rw [if_neg (by omega), if_neg (by omega), if_neg (isUneven_iff.not_left.mpr heven)]

theorem kind_of_checkTable (h : checkTable release size table span = .error fault) :
    fault.kind = .truncatedMetadata ∨ fault.kind = .malformedMetadata := by
  unfold checkTable at h
  split at h
  · obtain rfl := Except.error.inj h
    exact Or.inl rfl
  · split at h
    · obtain rfl := Except.error.inj h
      exact Or.inr rfl
    · split at h
      · obtain rfl := Except.error.inj h
        exact Or.inr rfl
      · cases h

theorem checkTables_eq_ok_iff : checkTables release size tables = .ok () ↔
    ∀ entry ∈ tables, Sound release size entry.1 entry.2 := by
  induction tables with
  | nil => simp [checkTables]
  | cons entry tables ih =>
      rw [checkTables, check_bind_eq_ok_iff, checkTable_eq_ok_iff, ih, List.forall_mem_cons]

theorem kind_of_checkTables (h : checkTables release size tables = .error fault) :
    fault.kind = .truncatedMetadata ∨ fault.kind = .malformedMetadata := by
  induction tables with
  | nil => cases h
  | cons entry tables ih =>
      rcases bind_eq_error h with hfirst | ⟨_, -, hrest⟩
      · exact kind_of_checkTable hfirst
      · exact ih hrest

theorem readWith_eq_ok_iff : readWith data sanity version release = .ok header ↔
    release.headerSize ≤ data.size ∧
      (∀ entry ∈ declaredTables data release, Sound release data.size entry.1 entry.2) ∧
        header = ⟨sanity, version, release, declaredTables data release⟩ := by
  unfold readWith
  dsimp only
  rw [ite_check_bind_eq_ok_iff, check_bind_eq_ok_iff, checkTables_eq_ok_iff,
    imp_iff_not throw_ne_ok, not_lt]
  simp only [pure, Except.pure, Except.ok.injEq, eq_comm]

theorem kind_of_readWith (h : readWith data sanity version release = .error fault) :
    fault.kind = .truncatedMetadata ∨ fault.kind = .malformedMetadata := by
  unfold readWith at h
  rcases ite_check_bind_eq_error h with hshort | h
  · obtain rfl := Except.error.inj hshort
    exact Or.inl rfl
  · rcases bind_eq_error h with htables | ⟨_, -, h⟩
    · exact kind_of_checkTables htables
    · cases h

theorem map_fst_declaredTables (data : ByteArray) (release : Release) :
    (declaredTables data release).map Prod.fst = release.headerTables := by
  simp [declaredTables, Function.comp_def]

theorem mem_tables_span (h : table ∈ header.tables.map Prod.fst) :
    (table, header.span table) ∈ header.tables := by
  obtain ⟨⟨declared, span⟩, hmem, rfl⟩ := List.mem_map.mp h
  unfold Header.span
  cases hlookup : header.tables.lookup declared with
  | none => simpa using List.lookup_eq_none_iff.mp hlookup _ hmem
  | some found =>
      obtain ⟨front, back, htables, -⟩ := List.lookup_eq_some_iff.mp hlookup
      simp [htables]

theorem kind_of_chooseRelease
    (h : (chooseRelease data version override).outcome.1 = .error fault) :
    fault.kind = .unsupportedMetadataVersion := by
  unfold chooseRelease overriddenRelease detectRelease at h
  split at h
  · split at h
    · obtain rfl := Except.error.inj h
      rfl
    · split at h <;> cases h
  · split at h
    · obtain rfl := Except.error.inj h
      rfl
    · cases h
    · dsimp only at h
      split at h <;> cases h

theorem ofDouble?_value (release : Release) :
    Release.ofDouble? release.value = some release := by
  cases release <;> decide

theorem outcome_chooseRelease_value (data : ByteArray) (version : Int) (release : Release) :
    (chooseRelease data version (some release.value)).outcome.1 = .ok release := by
  unfold chooseRelease
  dsimp only
  unfold overriddenRelease
  rw [ofDouble?_value]
  dsimp only
  split <;> rfl

/-- The version field of a blob. -/
def versionField (data : ByteArray) : Int :=
  Bytes.toSigned (Bytes.littleEndian data 4 4) 4

theorem outcome_read (data : ByteArray) (override : Option Double) :
    (read data override).outcome.1 =
      if data.size < 8 then .error (truncated 0)
      else if Bytes.littleEndian data 0 4 ≠ expectedSanity then
        .error (insane (Bytes.littleEndian data 0 4))
      else (chooseRelease data (versionField data) override).outcome.1 >>=
        readWith data (Bytes.littleEndian data 0 4) (versionField data) := by
  unfold read
  dsimp only
  split
  · rfl
  · split
    · rfl
    · exact outcome_bind fun _ => appends_ofExcept _

theorem sound_of_read (h : (read data override).outcome.1 = .ok header) :
    header.tables = declaredTables data header.release ∧
      ∀ entry ∈ header.tables, Sound header.release data.size entry.1 entry.2 := by
  rw [outcome_read] at h
  split at h
  · cases h
  · split at h
    · cases h
    · obtain ⟨release, -, h⟩ := bind_eq_ok h
      obtain ⟨-, hsound, rfl⟩ := readWith_eq_ok_iff.mp h
      exact ⟨rfl, hsound⟩

theorem mem_tables_of_read (h : (read data override).outcome.1 = .ok header)
    (htable : table ∈ header.release.headerTables) :
    (table, header.span table) ∈ header.tables := by
  apply mem_tables_span
  rwa [(sound_of_read h).1, map_fst_declaredTables]

theorem kind_of_read (h : (read data override).outcome.1 = .error fault) :
    fault.kind ∈ Fault.Kind.ofMetadata := by
  rw [outcome_read] at h
  split at h
  · obtain rfl := Except.error.inj h
    decide
  · split at h
    · obtain rfl := Except.error.inj h
      exact List.mem_cons_self
    · rcases bind_eq_error h with hrelease | ⟨release, -, h⟩
      · rw [kind_of_chooseRelease hrelease]
        decide
      · rcases kind_of_readWith h with hkind | hkind <;> rw [hkind] <;> decide

end Header

end TypeAtlas

namespace TypeAtlas.Header

open Logged

variable {data : ByteArray} {release chosen : Release} {releases : List Release} {version : Int}

/-- The header of a blob can be read as one of a release. -/
def Readable (data : ByteArray) (release : Release) : Prop :=
  release.headerSize ≤ data.size ∧
    ∀ entry ∈ declaredTables data release, Sound release data.size entry.1 entry.2

/-- No empty table starts past the end of the blob. -/
def EmptyTablesInside (data : ByteArray) (release : Release) : Prop :=
  ∀ entry ∈ declaredTables data release, entry.2.size = 0 → entry.2.offset ≤ data.size

section Fitting

theorem tableFits_iff {entry : Table × Span} : tableFits release data.size entry = true ↔
    (0 < entry.2.size → Sound release data.size entry.1 entry.2) := by
  have heven : (isUneven release entry.1 entry.2.size = false) ↔
      (release.isBlob entry.1 = false → release.recordWidth entry.1 ∣ entry.2.size) := by
    rw [Bool.eq_false_iff, ne_eq, isUneven_iff, not_not]
  simp only [tableFits, Bool.or_eq_true, Bool.and_eq_true, beq_iff_eq, decide_eq_true_eq,
    Bool.not_eq_true', heven]
  constructor
  · rintro (hempty | ⟨⟨hbehind, hinside⟩, heven⟩) hpos
    · omega
    · exact ⟨hinside, fun _ => hbehind, heven⟩
  · intro h
    by_cases hempty : entry.2.size = 0
    · exact Or.inl hempty
    · obtain ⟨hinside, hbehind, heven⟩ := h (by omega)
      exact Or.inr ⟨⟨hbehind (by omega), hinside⟩, heven⟩

theorem sound_of_empty {table : Table} {span : Span} (hempty : span.size = 0)
    (hinside : span.offset ≤ data.size) : Sound release data.size table span where
  inside := by
    rw [Span.stop]
    omega
  behind hpos := by omega
  even _ := hempty ▸ Nat.dvd_zero _

theorem fits_iff : fits data release = true ↔ release.headerSize ≤ data.size ∧
    ∀ entry ∈ declaredTables data release, 0 < entry.2.size →
      Sound release data.size entry.1 entry.2 := by
  simp only [fits, Bool.and_eq_true, decide_eq_true_eq, List.all_eq_true, tableFits_iff]

/-- A header can be read as one of a release exactly if the release fits and no empty table starts
past the end. -/
theorem readable_iff :
    Readable data release ↔ fits data release = true ∧ EmptyTablesInside data release := by
  rw [fits_iff]
  constructor
  · rintro ⟨hsize, hsound⟩
    refine ⟨⟨hsize, fun entry hentry _ => hsound entry hentry⟩, fun entry hentry _ => ?_⟩
    exact (Nat.le_add_right _ _).trans (hsound entry hentry).inside
  · rintro ⟨⟨hsize, hsound⟩, hempty⟩
    refine ⟨hsize, fun entry hentry => ?_⟩
    rcases Nat.eq_zero_or_pos entry.2.size with hzero | hpos
    · exact sound_of_empty hzero (hempty entry hentry hzero)
    · exact hsound entry hentry hpos

end Fitting

section Ranking

theorem rank_lt_two_iff : rank data release < 2 ↔ fits data release = true := by
  unfold rank
  cases fits data release with
  | true =>
      simp only [if_true, iff_true]
      split <;> omega
  | false =>
      simp only [Bool.false_eq_true, if_false, iff_false]
      omega

theorem mem_bestReleases_iff : chosen ∈ bestReleases data releases ↔
    chosen ∈ releases ∧ ∀ other ∈ releases, rank data chosen ≤ rank data other := by
  simp only [bestReleases, List.mem_filter, List.all_eq_true, decide_eq_true_eq]

theorem exists_mem_bestReleases (data : ByteArray) (h : releases ≠ []) :
    ∃ chosen, chosen ∈ bestReleases data releases := by
  obtain ⟨first, hfirst⟩ := List.exists_mem_of_ne_nil _ h
  obtain ⟨least, hleast⟩ : ∃ least, least ∈ releases.argmin (rank data) :=
    Option.ne_none_iff_exists'.mp fun hnone => h (List.argmin_eq_none.mp hnone)
  exact ⟨least, mem_bestReleases_iff.mpr
    ⟨List.argmin_mem hleast, fun _ hother => List.le_of_mem_argmin hother hleast⟩⟩

theorem outcome_detectRelease {others : List Release}
    (h : bestReleases data (Release.candidates version) = chosen :: others) :
    (detectRelease data version).outcome =
      (.ok chosen, if others = [] then #[]
        else #[⟨.warning, ambiguity version (chosen :: others) chosen⟩]) := by
  unfold detectRelease
  match hcandidates : Release.candidates version with
  | [] =>
      rw [hcandidates] at h
      cases h
  | [release] =>
      have honly : bestReleases data [release] = [release] := by simp [bestReleases]
      rw [hcandidates, honly] at h
      cases h
      rfl
  | first :: second :: rest =>
      rw [hcandidates] at h
      simp only [h, List.headD_cons]
      cases others with
      | nil => rfl
      | cons other others =>
          have hseveral : 1 < (chosen :: other :: others).length := by simp
          rw [if_pos hseveral, if_neg (List.cons_ne_nil _ _)]
          rfl

theorem exists_detectRelease (data : ByteArray) (h : Release.candidates version ≠ []) :
    ∃ chosen ∈ bestReleases data (Release.candidates version),
      (detectRelease data version).outcome.1 = .ok chosen := by
  obtain ⟨best, hbest⟩ := exists_mem_bestReleases data h
  obtain ⟨chosen, others, hchosen⟩ := List.exists_cons_of_ne_nil (List.ne_nil_of_mem hbest)
  exact ⟨chosen, hchosen ▸ List.mem_cons_self, congrArg Prod.fst (outcome_detectRelease hchosen)⟩

end Ranking

theorem read_value_isOk_iff (hsize : 8 ≤ data.size)
    (hsanity : Bytes.littleEndian data 0 4 = expectedSanity) :
    (∃ header, (read data (some release.value)).outcome.1 = .ok header) ↔
      Readable data release := by
  rw [outcome_read, if_neg (by omega), if_neg (not_not.mpr hsanity), outcome_chooseRelease_value,
    ok_bind]
  simp only [readWith_eq_ok_iff, exists_and_left, exists_eq, and_true, Readable]

theorem read_none_isOk_iff (hsize : 8 ≤ data.size)
    (hsanity : Bytes.littleEndian data 0 4 = expectedSanity)
    (hchosen : (detectRelease data (versionField data)).outcome.1 = .ok chosen) :
    (∃ header, (read data none).outcome.1 = .ok header) ↔ Readable data chosen := by
  rw [outcome_read, if_neg (by omega), if_neg (not_not.mpr hsanity), chooseRelease, hchosen,
    ok_bind]
  simp only [readWith_eq_ok_iff, exists_and_left, exists_eq, and_true, Readable]

/-- A blob whose version has candidates is read without an override exactly if it is read with one
that names a candidate and the release that is detected declares no empty table past the end of the
blob. A release fits a blob exactly if the blob is read with an override that names it, such tables
apart. -/
theorem read_isOk_iff_of_candidates (hsize : 8 ≤ data.size)
    (hsanity : Bytes.littleEndian data 0 4 = expectedSanity)
    (hcandidates : Release.candidates (versionField data) ≠ []) :
    (∃ chosen ∈ Release.candidates (versionField data),
      (detectRelease data (versionField data)).outcome.1 = .ok chosen ∧
        ((∃ header, (read data none).outcome.1 = .ok header) ↔
          (∃ release ∈ Release.candidates (versionField data), ∃ header,
            (read data (some release.value)).outcome.1 = .ok header) ∧
          EmptyTablesInside data chosen)) ∧
      ∀ release, (∃ header, (read data (some release.value)).outcome.1 = .ok header) ↔
        fits data release = true ∧ EmptyTablesInside data release := by
  obtain ⟨chosen, hbest, hchosen⟩ := exists_detectRelease data hcandidates
  obtain ⟨hmem, hleast⟩ := mem_bestReleases_iff.mp hbest
  refine ⟨⟨chosen, hmem, hchosen, ?_⟩, fun release => ?_⟩
  · rw [read_none_isOk_iff hsize hsanity hchosen]
    simp only [read_value_isOk_iff hsize hsanity]
    constructor
    · intro h
      exact ⟨⟨chosen, hmem, h⟩, (readable_iff.mp h).2⟩
    · rintro ⟨⟨release, hrelease, h⟩, hempty⟩
      have hfits := rank_lt_two_iff.mpr (readable_iff.mp h).1
      exact readable_iff.mpr
        ⟨rank_lt_two_iff.mp ((hleast release hrelease).trans_lt hfits), hempty⟩
  · rw [read_value_isOk_iff hsize hsanity, readable_iff]

/-- A blob of release 24.2 with one table, the strings, and eight bytes between the header and the
table. A header of release 24.0 or 24.1 is eight bytes longer, and the bytes in between declare an
empty table past the end of the blob. -/
def gappedData : ByteArray :=
  let zeros (count : Nat) : List UInt8 := List.replicate count 0
  ⟨([0xAF, 0x1B, 0xB1, 0xFA, 24, 0, 0, 0] ++ zeros 16 ++ [192, 0, 0, 0, 5, 0, 0, 0] ++ zeros 152 ++
    [0xFF, 0xFF, 0xFF, 0xFF, 0, 0, 0, 0] ++ [0x47, 0x61, 0x6D, 0x65, 0]).toArray⟩

/-- The blob is read as release 24.2 if an override says so, and is not read without one. -/
theorem read_gappedData :
    (∃ header, (read gappedData (some Release.v24_2.value)).outcome.1 = .ok header) ∧
      ¬∃ header, (read gappedData none).outcome.1 = .ok header := by
  have hversion : versionField gappedData = 24 := by decide +kernel
  have hdetected : (detectRelease gappedData 24).outcome.1 = .ok .v24_0 := by decide +kernel
  have hfits : fits gappedData .v24_2 = true ∧ EmptyTablesInside gappedData .v24_2 := by
    unfold EmptyTablesInside
    decide +kernel
  have hoverlong : ¬EmptyTablesInside gappedData .v24_0 := by
    unfold EmptyTablesInside
    decide +kernel
  have hcandidates : Release.candidates (versionField gappedData) ≠ [] := by
    rw [hversion]
    decide
  obtain ⟨⟨chosen, -, hchosen, hread⟩, hoverride⟩ :=
    read_isOk_iff_of_candidates (by decide +kernel) (by decide +kernel) hcandidates
  rw [hversion, hdetected] at hchosen
  obtain rfl := Except.ok.inj hchosen
  exact ⟨(hoverride _).mpr hfits, fun h => hoverlong (hread.mp h).2⟩

end TypeAtlas.Header
