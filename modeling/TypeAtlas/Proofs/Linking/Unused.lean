import TypeAtlas.Proofs.Linking.Agreement
import TypeAtlas.Proofs.Linking.Graph
import TypeAtlas.Proofs.Metadata.RoundTrip

namespace TypeAtlas

open TypeGraph

/-- Two blobs of one layout have the same raw bytes and tables of the same sizes, and agree on all
records that linking of the first one may read. -/
structure Metadata.AgreesOnReached (metadata other : Metadata) : Prop where
  release : other.release = metadata.release
  blobs : ∀ table, metadata.release.isBlob table = true → other.blob table = metadata.blob table
  sizes : ∀ table, (other.table table).size = (metadata.table table).size
  records : ∀ table index, metadata.rows.Reaches table index →
    (other.table table)[index]? = (metadata.table table)[index]?

namespace Strings

variable {data : ByteArray} {start size : Nat}

theorem stop?_slice (offset : Int) :
    stop? ⟨data, start, size⟩ offset =
      (stop? ⟨Bytes.slice data start size, 0, (Bytes.slice data start size).size⟩ offset).map
        (start + ·) := by
  have hsize : (Bytes.slice data start size).size = min (start + size) data.size - start := by
    rw [Bytes.slice, ByteArray.size_extract]
  refine Option.ext fun stop => ?_
  simp only [Option.map_eq_some_iff, stop?_eq_some_iff, Bytes.terminator?_eq_some_iff]
  constructor
  · rintro ⟨n, rfl, hn, hle, hlt, hin, hzero, hfirst⟩
    obtain ⟨inner, rfl⟩ := Nat.exists_eq_add_of_le (show start ≤ stop by omega)
    refine ⟨inner, ⟨n, rfl, by omega, by omega, by omega, by omega, ?_, fun p hp hstop => ?_⟩, rfl⟩
    · rwa [Bytes.byteAt_slice (by omega)]
    · rw [Bytes.byteAt_slice (by omega)]
      exact hfirst _ (by omega) (by omega)
  · rintro ⟨inner, ⟨n, rfl, hn, hle, hlt, hin, hzero, hfirst⟩, rfl⟩
    rw [Bytes.byteAt_slice hin] at hzero
    refine ⟨n, rfl, by omega, by omega, by omega, by omega, hzero, fun p hp hstop => ?_⟩
    obtain ⟨q, rfl⟩ := Nat.exists_eq_add_of_le (show start ≤ p by omega)
    rw [← Bytes.byteAt_slice (show q < (Bytes.slice data start size).size by omega)]
    exact hfirst q (by omega) (by omega)

/-- The strings of a table depend on the bytes of the table only. -/
theorem get_eq_slice (strings : Strings) :
    strings.get =
      get ⟨Bytes.slice strings.data strings.start strings.size, 0,
        (Bytes.slice strings.data strings.start strings.size).size⟩ := by
  obtain ⟨data, start, size⟩ := strings
  funext offset
  rw [get, get, stop?_slice]
  cases hstop : stop? ⟨Bytes.slice data start size, 0, (Bytes.slice data start size).size⟩
      offset with
  | none => rfl
  | some stop =>
      obtain ⟨n, rfl, hn, hterminator⟩ := stop?_eq_some_iff.mp hstop
      obtain ⟨-, -, hin, -⟩ := Bytes.terminator?_spec hterminator
      simp only [Bytes.slice, ByteArray.size_extract] at hin
      have hmin : min (start + stop) (start + size) = start + stop := by omega
      simp only [Option.map_some, Int.toNat_natCast, Bytes.slice, ByteArray.extract_extract, hmin,
        Nat.zero_add]

end Strings

namespace Metadata

variable {metadata other : Metadata}

theorem get_strings (metadata : Metadata) :
    metadata.strings.get =
      Strings.get ⟨metadata.blob .strings, 0, (metadata.blob .strings).size⟩ :=
  Strings.get_eq_slice metadata.strings

theorem AgreesOnReached.rowsOf (h : metadata.AgreesOnReached other) {α : Type} {table : Table}
    (make : (String → Int) → α)
    (hall : ∀ index, metadata.rows.Reaches table index := by exact fun _ => trivial) :
    other.rowsOf table make = metadata.rowsOf table make := by
  have htable : other.table table = metadata.table table :=
    Array.ext_getElem? fun index => h.records table index (hall index)
  simp only [Metadata.rowsOf, h.release, htable]

theorem AgreesOnReached.getElem?_rowsOf (h : metadata.AgreesOnReached other) {α : Type}
    {table : Table} {index : Nat} (hreaches : metadata.rows.Reaches table index)
    (make : (String → Int) → α) :
    (other.rowsOf table make)[index]? = (metadata.rowsOf table make)[index]? := by
  simp only [Metadata.rowsOf, Array.getElem?_map, h.release, h.records table index hreaches]

theorem AgreesOnReached.size_rowsOf (h : metadata.AgreesOnReached other) {α : Type}
    (table : Table) (make : (String → Int) → α) :
    (other.rowsOf table make).size = (metadata.rowsOf table make).size := by
  simp only [Metadata.rowsOf, Array.size_map, h.sizes]

theorem AgreesOnReached.agree (h : metadata.AgreesOnReached other) :
    metadata.rows.Agree other.rows where
  same := by
    refine ⟨other.rows.strings, other.rows.references, other.rows.genericClasses,
      other.rows.genericInsts, other.rows.genericArguments, ?_⟩
    simp only [Metadata.rows, Metadata.indices, Rows.mk.injEq, true_and]
    exact ⟨h.release, h.rowsOf _, h.rowsOf _, h.rowsOf _, h.rowsOf _, h.rowsOf _, h.rowsOf _,
      h.rowsOf _, h.rowsOf _, h.rowsOf _, h.rowsOf _, h.rowsOf _, h.rowsOf _, h.rowsOf _,
      h.rowsOf _, h.rowsOf _, h.blobs _ rfl, h.blobs _ rfl⟩
  strings := by
    have hget := get_strings other
    rw [h.blobs .strings rfl, ← get_strings metadata] at hget
    exact hget
  count := by
    funext table
    cases table <;> simp only [Rows.count, Metadata.rows, Metadata.indices, h.size_rowsOf]
  references := fun hreaches => h.getElem?_rowsOf hreaches _
  genericClasses := fun hreaches => h.getElem?_rowsOf hreaches _
  genericInsts := fun hreaches => h.getElem?_rowsOf hreaches _
  genericArguments := fun hreaches => h.getElem?_rowsOf hreaches _

end Metadata

namespace Content

/-- The rows of a content, with its bytes alone. -/
def rows (content : Content) (release : Release) : Rows :=
  let header : Header := ⟨Header.expectedSanity, release.major, release, []⟩
  { Metadata.rows ⟨ByteArray.empty, header, content.tables release⟩ with
    strings := ⟨(content.bytes .strings).toByteArray, 0, (content.bytes .strings).length⟩
    defaultData := (content.bytes .defaultValueData).toByteArray
    literalData := (content.bytes .stringLiteralData).toByteArray }

theorem agree_rows (content : Content) (release : Release) :
    (content.metadata release).rows.Agree (content.rows release) := by
  have hblob := fun table => @blob_metadata release table content
  have hget := Metadata.get_strings (content.metadata release)
  rw [hblob .strings (by simp [Release.headerTables]) (by cases release <;> rfl),
    List.size_toByteArray] at hget
  have hdefault := hblob .defaultValueData (by simp [Release.headerTables])
    (by cases release <;> rfl)
  have hliteral := hblob .stringLiteralData (by simp [Release.headerTables])
    (by cases release <;> rfl)
  have hsame : content.rows release =
      { (content.metadata release).rows with strings := (content.rows release).strings } := by
    simp only [rows, Metadata.rows, hdefault, hliteral]
    rw [metadata]
    rfl
  rw [hsame]
  exact
    { same := ⟨_, _, _, _, _, rfl⟩
      strings := hget.symm
      count := rfl
      references := fun _ => rfl
      genericClasses := fun _ => rfl
      genericInsts := fun _ => rfl
      genericArguments := fun _ => rfl }

/-- A graph depends on the bytes of a content, but not on where they stand in its blob. -/
theorem outcome_build_metadata (content : Content) (release : Release) :
    (build (content.metadata release)).outcome.1 = ofRows (content.rows release) := by
  rw [outcome_build, ofRows, ofRows, (agree_rows content release).link]

end Content

namespace TypeGraph

/-- Records that no definition uses do not matter: blobs that agree on all others have the same
graph with the same numbers, or the same fault at the same place, and the same log. -/
theorem build_of_agreesOnReached {metadata other : Metadata}
    (h : metadata.AgreesOnReached other) :
    (build other).outcome = (build metadata).outcome := by
  rw [build, build, ofRows, ofRows, h.agree.link]

/-- A blob with one field, whose type is the first of two type references. The other one is not
used. -/
def unusedBlob (data kind : Int) : Metadata :=
  { smallBlob with
    tables := [
      (.fields, #[[-1, 0, 0]]), (.typeReferences, #[[0, 0, 8, 0], [data, 0, kind, 0]])] }

/-- Rows of which only the first type reference is used. -/
structure UsesFirst (rows : Rows) : Prop where
  fields : rows.fields = #[⟨-1, 0, 0⟩]
  references : rows.references[0]? = some ⟨0, 0, 8, 0⟩
  types : rows.types = #[]
  methods : rows.methods = #[]
  genericParameters : rows.genericParameters = #[]
  methodSpecs : rows.methodSpecs = #[]
  defaults : rows.defaults = #[]

theorem usesFirst_unusedBlob : UsesFirst (unusedBlob 0 8).rows := by
  constructor <;> cbv

section Unused

variable {rows : Rows} {index : Int}

theorem UsesFirst.uses (h : UsesFirst rows) (huses : rows.Uses index) : index = 0 := by
  cases huses with
  | field hrow =>
      simp only [h.fields, List.mem_toArray, List.mem_singleton] at hrow
      rw [hrow]
  | interface hrow => simp [h.types] at hrow
  | returned hrow | parameter hrow => simp [h.methods] at hrow
  | constraint hrow => simp [h.genericParameters] at hrow
  | classArgument hrow | methodArgument hrow => simp [h.methodSpecs] at hrow

theorem UsesFirst.not_refers (h : UsesFirst rows) : ¬rows.Refers 0 index := by
  intro hrefers
  cases hrefers with
  | element hrow hrole | argument hrow hrole =>
      obtain rfl := Option.some.inj (hrow.symm.trans h.references)
      exact absurd hrole (by decide)

theorem UsesFirst.used (h : UsesFirst rows) (hused : rows.Used index) : index = 0 := by
  obtain ⟨first, hfirst, hreach⟩ := hused
  obtain rfl := h.uses hfirst
  rcases hreach.cases_head with heq | ⟨part, hrefers, -⟩
  · exact heq.symm
  · exact absurd hrefers h.not_refers

theorem UsesFirst.reaches (h : UsesFirst rows) {place : Nat}
    (hreaches : rows.Reaches .typeReferences place) : place = 0 := by
  rcases hreaches with hused | ⟨row, hrow, -⟩
  · exact Int.ofNat.inj (h.used hused)
  · simp [h.defaults] at hrow

end Unused

theorem agreesOnReached_unusedBlob :
    (unusedBlob 0 8).AgreesOnReached (unusedBlob 99 29) where
  release := rfl
  blobs := fun _ _ => rfl
  sizes := fun table => by cases table <;> rfl
  records := by
    intro table index hreaches
    by_cases htable : table = .typeReferences
    · subst htable
      obtain rfl := usesFirst_unusedBlob.reaches hreaches
      rfl
    · have hrecords : (unusedBlob 99 29).table table = (unusedBlob 0 8).table table := by
        cases table <;> first | rfl | exact absurd rfl htable
      rw [hrecords]

theorem build_unusedBlob : (unusedBlob 0 8).AgreesOnReached (unusedBlob 99 29) ∧
    (build (unusedBlob 99 29)).outcome = (build (unusedBlob 0 8)).outcome ∧
      ∃ graph, (build (unusedBlob 99 29)).outcome.1 = .ok graph ∧ graph.references.size = 1 :=
  ⟨agreesOnReached_unusedBlob, build_of_agreesOnReached agreesOnReached_unusedBlob,
    exists_build_of_map (by cbv)⟩

end TypeGraph

end TypeAtlas
