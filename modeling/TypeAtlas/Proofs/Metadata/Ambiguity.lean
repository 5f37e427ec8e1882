import TypeAtlas.Proofs.Metadata.Detection
import TypeAtlas.Proofs.Metadata.RoundTrip
/-!
Detecting the release in which a blob was written. A blob of a release fits it, and its first table
starts right behind the header. Then the release that is detected fits as well, has a header of the
same size, and is not a later one. Only the first two releases of version 24 have headers of one
size, so they are the only ones that can be taken for each other, and never without a warning.
-/

namespace TypeAtlas

namespace Release

variable {release other : Release} {version : Int}

theorem lt_asymm (h : release < other) : ¬other < release := by
  change 10 * release.major + release.minor < 10 * other.major + other.minor at h
  change ¬10 * other.major + other.minor < 10 * release.major + release.minor
  omega

theorem pairwise_candidates (version : Int) : (candidates version).Pairwise (· < ·) := by
  have hall : all.Pairwise (· < ·) := by decide
  exact hall.filter _

theorem eq_of_headerSize_eq (hmajor : release.major = other.major)
    (hsize : release.headerSize = other.headerSize) (hlt : release < other) :
    release = .v24_0 ∧ other = .v24_1 := by
  revert hmajor hsize hlt
  cases release <;> cases other <;> decide

/-- A release may be taken for itself, and 24.1 for 24.0. -/
def MayBe (release chosen : Release) : Prop :=
  chosen = release ∨ chosen = .v24_0 ∧ release = .v24_1

namespace MayBe

variable {chosen : Release}

theorem headerSize_eq (h : release.MayBe chosen) : chosen.headerSize = release.headerSize := by
  rcases h with rfl | ⟨rfl, rfl⟩
  · rfl
  · decide

theorem eq_or_lt (h : release.MayBe chosen) : chosen = release ∨ chosen < release := by
  rcases h with rfl | ⟨rfl, rfl⟩
  · exact Or.inl rfl
  · exact Or.inr (by decide)

theorem eq_of_ne (h : release.MayBe chosen) (hne : release ≠ .v24_1) : chosen = release := by
  rcases h with hchosen | ⟨-, hrelease⟩
  · exact hchosen
  · exact absurd hrelease hne

theorem declaredTables_eq (h : release.MayBe chosen) (data : ByteArray) :
    Header.declaredTables data chosen = Header.declaredTables data release := by
  rcases h with rfl | ⟨rfl, rfl⟩
  · rfl
  · rfl

end MayBe

end Release

namespace Header

open Logged

variable {data : ByteArray} {release chosen : Release} {others : List Release} {version : Int}
  {log : Log}

theorem startsExactly_iff : startsExactly data release = true ↔
    release.headerSize ≤ data.size ∧ Bytes.littleEndian data 8 4 = release.headerSize := by
  obtain ⟨tables, htables⟩ : ∃ tables, release.headerTables = .stringLiterals :: tables :=
    ⟨_, rfl⟩
  simp [startsExactly, declaredTables, htables]

section Tied

theorem rank_eq_zero_iff :
    rank data release = 0 ↔ fits data release = true ∧ startsExactly data release = true := by
  unfold rank
  cases fits data release <;> cases startsExactly data release <;> simp

theorem pairwise_bestReleases (data : ByteArray) (version : Int) :
    (bestReleases data (Release.candidates version)).Pairwise (· < ·) :=
  (Release.pairwise_candidates version).filter _

theorem bestReleases_of_rank_eq_zero (hrelease : release ∈ Release.candidates version)
    (hrank : rank data release = 0) :
    release ∈ bestReleases data (Release.candidates version) ∧
      ∀ other ∈ bestReleases data (Release.candidates version),
        other.major = release.major ∧ other.headerSize = release.headerSize ∧
          fits data other = true := by
  refine ⟨mem_bestReleases_iff.mpr ⟨hrelease, fun other _ => ?_⟩, fun other hother => ?_⟩
  · rw [hrank]
    exact Nat.zero_le _
  · obtain ⟨hmem, hleast⟩ := mem_bestReleases_iff.mp hother
    have hother_rank : rank data other = 0 := by
      have hle := hleast release hrelease
      omega
    obtain ⟨hfits, hexact⟩ := rank_eq_zero_iff.mp hother_rank
    have hstart := (startsExactly_iff.mp (rank_eq_zero_iff.mp hrank).2).2
    have hmajor := Release.mem_candidates.mp hrelease
    have hother_major := Release.mem_candidates.mp hmem
    refine ⟨by omega, ?_, hfits⟩
    rw [← hstart, (startsExactly_iff.mp hexact).2]

theorem mayBe_of_bestReleases (hrelease : release ∈ Release.candidates version)
    (hrank : rank data release = 0)
    (hbest : bestReleases data (Release.candidates version) = chosen :: others) :
    release.MayBe chosen ∧ (chosen ≠ release → others = [release]) := by
  obtain ⟨hmem, hsame⟩ := bestReleases_of_rank_eq_zero hrelease hrank
  have hascending := pairwise_bestReleases data version
  rw [hbest] at hmem hsame hascending
  obtain ⟨hfirst, hothers⟩ := List.pairwise_cons.mp hascending
  obtain ⟨hmajor, hsize, -⟩ := hsame chosen List.mem_cons_self
  -- Whatever comes after the first one is the second release of version 24.
  have hlater : ∀ other ∈ others, chosen = .v24_0 ∧ other = .v24_1 := by
    intro other hother
    obtain ⟨hother_major, hother_size, -⟩ := hsame other (List.mem_cons_of_mem _ hother)
    apply Release.eq_of_headerSize_eq
    · rw [hmajor, hother_major]
    · rw [hsize, hother_size]
    · exact hfirst other hother
  rcases List.mem_cons.mp hmem with rfl | hrest
  · exact ⟨Or.inl rfl, fun hne => absurd rfl hne⟩
  · obtain ⟨rfl, rfl⟩ := hlater release hrest
    refine ⟨Or.inr ⟨rfl, rfl⟩, fun _ => ?_⟩
    cases others with
    | nil => cases hrest
    | cons other others =>
        obtain ⟨-, rfl⟩ := hlater other List.mem_cons_self
        cases others with
        | nil => rfl
        | cons third others =>
            have hlt := (List.pairwise_cons.mp hothers).1 third List.mem_cons_self
            obtain ⟨-, rfl⟩ := hlater third (List.mem_cons_of_mem _ List.mem_cons_self)
            exact absurd hlt (Release.lt_asymm hlt)

end Tied

section Reading

theorem eight_le_of_fits (h : fits data release = true) : 8 ≤ data.size := by
  have hheader := (fits_iff.mp h).1
  rw [Release.headerSize] at hheader
  omega

theorem outcome_read_of_detect (hsize : 8 ≤ data.size)
    (hsanity : Bytes.littleEndian data 0 4 = expectedSanity)
    (h : (detectRelease data (versionField data)).outcome = (.ok chosen, log)) :
    (read data none).outcome =
      (readWith data expectedSanity (versionField data) chosen, log) := by
  have hread : read data none = detectRelease data (versionField data) >>= fun release =>
      Logged.ofExcept (readWith data expectedSanity (versionField data) release) := by
    unfold read
    dsimp only
    rw [if_neg (by omega), if_neg (not_not.mpr hsanity), hsanity]
    rfl
  have hdetected : (detectRelease data (versionField data)).outcomeFrom #[] = (.ok chosen, log) := h
  rw [hread]
  exact outcomeFrom_bind_ok hdetected

/-- A blob whose first table starts right behind the header of a release that it fits is taken for
one of that release, or of another one with a warning. -/
theorem exists_detectRelease_of_exact (hrelease : release ∈ Release.candidates version)
    (hfits : fits data release = true) (hexact : startsExactly data release = true) :
    ∃ chosen log, (detectRelease data version).outcome = (.ok chosen, log) ∧
      fits data chosen = true ∧ release.MayBe chosen ∧
        (chosen ≠ release → log = #[⟨.warning, ambiguity version [chosen, release] chosen⟩]) := by
  have hrank := rank_eq_zero_iff.mpr ⟨hfits, hexact⟩
  obtain ⟨hmem, hsame⟩ := bestReleases_of_rank_eq_zero hrelease hrank
  obtain ⟨chosen, others, hbest⟩ := List.exists_cons_of_ne_nil (List.ne_nil_of_mem hmem)
  obtain ⟨hchosen, htied⟩ := mayBe_of_bestReleases hrelease hrank hbest
  refine ⟨chosen, _, outcome_detectRelease hbest,
    (hsame chosen (hbest ▸ List.mem_cons_self)).2.2, hchosen, fun hne => ?_⟩
  rw [htied hne, if_neg (List.cons_ne_nil _ _)]

theorem outcome_read_of_mayBe (hsanity : Bytes.littleEndian data 0 4 = expectedSanity)
    (hdetected : (detectRelease data (versionField data)).outcome = (.ok chosen, log))
    (hfits : fits data chosen = true) (hchosen : release.MayBe chosen)
    (hempty : EmptyTablesInside data release) :
    (read data none).outcome =
      (.ok ⟨expectedSanity, versionField data, chosen, declaredTables data release⟩, log) := by
  have htables := hchosen.declaredTables_eq data
  have hempty_chosen : EmptyTablesInside data chosen := by
    unfold EmptyTablesInside
    rwa [htables]
  obtain ⟨hheader, hsound⟩ := readable_iff.mpr ⟨hfits, hempty_chosen⟩
  rw [outcome_read_of_detect (eight_le_of_fits hfits) hsanity hdetected,
    readWith_eq_ok_iff.mpr ⟨hheader, hsound, rfl⟩, htables]

end Reading

/-- The release in which a blob was written is detected, if the blob fits it and its first table
starts right behind the header. What is detected instead can only be a lower release that fits as
well and has a header of the same size, and then a warning names both. This happens to no release
but 24.1, which can be taken for 24.0. The header is read as the release that is detected, unless
an empty table starts past the end of the blob. -/
theorem detects_written_release (hrelease : release ∈ Release.candidates version)
    (hfits : fits data release = true) (hexact : startsExactly data release = true) :
    ∃ chosen log, (detectRelease data version).outcome = (.ok chosen, log) ∧
      chosen.headerSize = release.headerSize ∧ fits data chosen = true ∧
        (chosen = release ∨ chosen < release) ∧
        (chosen ≠ release → log = #[⟨.warning, ambiguity version [chosen, release] chosen⟩]) ∧
        (release ≠ .v24_1 → chosen = release) ∧
        (release = .v24_1 → chosen = .v24_1 ∨ chosen = .v24_0) ∧
        (Bytes.littleEndian data 0 4 = expectedSanity → versionField data = version →
          ((∃ header, (read data none).outcome.1 = .ok header) ↔
            EmptyTablesInside data release) ∧
          (EmptyTablesInside data release → (read data none).outcome =
            (.ok ⟨expectedSanity, version, chosen, declaredTables data release⟩, log))) := by
  obtain ⟨chosen, log, hdetected, hchosen_fits, hchosen, hwarned⟩ :=
    exists_detectRelease_of_exact hrelease hfits hexact
  refine ⟨chosen, log, hdetected, hchosen.headerSize_eq, hchosen_fits, hchosen.eq_or_lt, hwarned,
    hchosen.eq_of_ne, ?second, ?read⟩
  case second =>
    rintro rfl
    exact hchosen.imp_right And.left
  case read =>
    rintro hsanity rfl
    refine ⟨?_, outcome_read_of_mayBe hsanity hdetected hchosen_fits hchosen⟩
    rw [read_none_isOk_iff (eight_le_of_fits hfits) hsanity (congrArg Prod.fst hdetected),
      readable_iff, EmptyTablesInside, EmptyTablesInside, hchosen.declaredTables_eq data]
    exact and_iff_right hchosen_fits

/-- A blob of release 24.1 without any records, which are what tells it from 24.0. -/
def recordlessData : ByteArray :=
  let start : List UInt8 := [0xAF, 0x1B, 0xB1, 0xFA, 24, 0, 0, 0, 192, 0, 0, 0]
  (start ++ List.replicate 180 0).toByteArray

theorem detects_recordlessData :
    (read recordlessData none).outcome =
      (.ok ⟨expectedSanity, 24, .v24_0, declaredTables recordlessData .v24_1⟩,
        #[⟨.warning, ambiguity 24 [.v24_0, .v24_1] .v24_0⟩]) := by
  have hdetected : (detectRelease recordlessData 24).outcome.1 = .ok .v24_0 := by decide +kernel
  have hempty : EmptyTablesInside recordlessData .v24_1 := by
    unfold EmptyTablesInside
    decide +kernel
  obtain ⟨chosen, log, hchosen, -, -, -, hwarned, -, -, hread⟩ :=
    detects_written_release (show Release.v24_1 ∈ Release.candidates 24 by decide)
      (show fits recordlessData .v24_1 = true by decide +kernel) (by decide +kernel)
  rw [hchosen] at hdetected
  obtain rfl := Except.ok.inj hdetected
  rw [(hread (by decide +kernel) (by decide +kernel)).2 hempty, hwarned (by decide)]

end Header

namespace Content

open Header

variable {content : Content} {release : Release}

theorem fits_blob (hfits : content.Fits release) : fits (content.blob release) release = true := by
  rw [fits_iff, declaredTables_blob (size_blob_lt hfits)]
  exact ⟨headerSize_le_size_blob content release,
    fun entry hentry _ => sound_of_mem_spans hfits hentry⟩

theorem startsExactly_blob (hfits : content.Fits release) :
    startsExactly (content.blob release) release = true := by
  have hfirst : ((content.spans release).head?.any fun entry =>
      entry.2.offset == release.headerSize) = true := by
    simp [spans, Release.headerTables, spansFrom]
  rw [startsExactly, declaredTables_blob (size_blob_lt hfits), hfirst, Bool.and_true,
    decide_eq_true_eq]
  exact headerSize_le_size_blob content release

theorem emptyTablesInside_blob (hfits : content.Fits release) :
    EmptyTablesInside (content.blob release) release := by
  intro entry hentry _
  rw [declaredTables_blob (size_blob_lt hfits)] at hentry
  exact (Nat.le_add_right _ _).trans (sound_of_mem_spans hfits hentry).inside

theorem read_blob_none (hfits : content.Fits release) :
    ∃ chosen log, (Header.read (content.blob release) none).outcome =
        (.ok ⟨expectedSanity, release.major, chosen, content.spans release⟩, log) ∧
      release.MayBe chosen ∧ (chosen ≠ release →
        log = #[⟨.warning, ambiguity release.major [chosen, release] chosen⟩]) := by
  have hversion := versionField_blob content release
  obtain ⟨chosen, log, hdetected, hchosen_fits, hchosen, hwarned⟩ :=
    exists_detectRelease_of_exact (Release.mem_candidates.mpr hversion.symm) (fits_blob hfits)
      (startsExactly_blob hfits)
  have hread := outcome_read_of_mayBe (sanity_blob content release) hdetected hchosen_fits hchosen
    (emptyTablesInside_blob hfits)
  rw [hversion, declaredTables_blob (size_blob_lt hfits)] at hread
  rw [hversion] at hwarned
  exact ⟨chosen, log, hread, hchosen, hwarned⟩

end Content

end TypeAtlas
