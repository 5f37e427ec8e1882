import TypeAtlas.Proofs.Linking.Cycles
import TypeAtlas.Proofs.Linking.Ending
import TypeAtlas.Proofs.Linking.Faults
import TypeAtlas.Proofs.Metadata.Faithful

namespace TypeAtlas

section Names

/-- A name can be read. -/
def Rows.HasName (rows : Rows) (name : Int) : Prop :=
  ∃ text, rows.strings.get name = .ok text

/-- Every name of a row can be read. -/
structure Rows.Named (rows : Rows) : Prop where
  types : ∀ row ∈ rows.types, rows.HasName row.name ∧ rows.HasName row.namespaceName
  methods : ∀ row ∈ rows.methods, rows.HasName row.name
  parameters : ∀ row ∈ rows.parameters, rows.HasName row.name
  fields : ∀ row ∈ rows.fields, rows.HasName row.name
  properties : ∀ row ∈ rows.properties, rows.HasName row.name
  genericParameters : ∀ row ∈ rows.genericParameters, rows.HasName row.name
  images : ∀ row ∈ rows.images, rows.HasName row.name

variable {data : ByteArray} {override : Option Double} {metadata : Metadata}

theorem hasName_of_read (h : (Metadata.read data override).outcome.1 = .ok metadata) {table : Table}
    {record : Record} (hrecord : record ∈ metadata.table table) {name : String}
    (hname : name ∈ Release.stringFields table) :
    metadata.rows.HasName (record.value (metadata.release.fieldsOf table) name) := by
  obtain ⟨-, hreadable⟩ := (Metadata.faithful_of_read h).names table record hrecord name hname
  rcases hreadable with ⟨-, hget⟩ | ⟨_, _, -, -, -, -, -, -, hget⟩
  · exact ⟨_, hget⟩
  · exact ⟨_, hget⟩

theorem named_of_read (h : (Metadata.read data override).outcome.1 = .ok metadata) :
    metadata.rows.Named := by
  constructor
  case types =>
    intro row hrow
    simp only [Metadata.rows, Metadata.rowsOf, Array.mem_map] at hrow
    obtain ⟨record, hrecord, rfl⟩ := hrow
    exact ⟨hasName_of_read h hrecord (by simp [Release.stringFields]),
      hasName_of_read h hrecord (by simp [Release.stringFields])⟩
  all_goals
    intro row hrow
    simp only [Metadata.rows, Metadata.rowsOf, Array.mem_map] at hrow
    obtain ⟨record, hrecord, rfl⟩ := hrow
    exact hasName_of_read h hrecord (by simp [Release.stringFields])

end Names

namespace TypeGraph

open Link

variable {α β : Type} {rows : Rows} {allowed : Fault → Prop}

section Rows

theorem mapRows_failsOnly {make : Nat → α → Link β} (start : Nat) {items : List α}
    (hmake : ∀ offset row, items[offset]? = some row →
      FailsOnly (make (start + offset) row) allowed) :
    FailsOnly (mapRows make start items) allowed := by
  induction items generalizing start with
  | nil => exact .pure _
  | cons item items ih =>
      refine .bind (hmake 0 item rfl) fun first => ?_
      refine .bind (ih (start + 1) fun offset row hrow => ?_) fun rest => .pure _
      have hnext := hmake (offset + 1) row hrow
      rwa [Nat.add_comm offset, ← Nat.add_assoc] at hnext

theorem forRows_failsOnly {source : Array α} {make : Nat → α → Link β}
    (hmake : ∀ index row, source[index]? = some row → FailsOnly (make index row) allowed) :
    FailsOnly (forRows source make) allowed := by
  refine .bind (mapRows_failsOnly 0 fun index row hrow => ?_) fun made => .pure _
  rw [Nat.zero_add]
  exact hmake index row (by simpa using hrow)

theorem name_failsOnly {name : Int} (h : rows.HasName name) :
    FailsOnly (liftM (rows.strings.get name)) allowed := by
  obtain ⟨text, htext⟩ := h
  refine .lift fun fault hfault => ?_
  cases htext.symm.trans hfault

theorem containedParameters_failsOnly (rows : Rows) (container : Int) (table : Table)
    (index : Nat) :
    FailsOnly (liftM (containedParameters rows container table index)) Fault.IsDangling := by
  refine .lift fun fault h => ?_
  unfold containedParameters at h
  split at h
  · cases h
  · rcases bind_eq_error h with hfound | ⟨found, -, h⟩
    · exact isDangling_of_index hfound
    · exact isDangling_of_range h

theorem listedReferences_failsOnly (rows : Rows) (indices : Array Int) (table : Table)
    (range : List Nat) :
    FailsOnly (listedReferences rows indices table range) Fault.IsDangling :=
  .mapM fun _ _ => reference_failsOnly _ _ _

end Rows

section Makers

theorem makeType_failsOnly (index : Nat) {row : TypeRow} (hname : rows.HasName row.name)
    (hnamespace : rows.HasName row.namespaceName) :
    FailsOnly (makeType rows index row) Fault.IsDangling := by
  refine .bind (.lift fun _ => isDangling_of_optionalIndex) fun base => ?_
  refine .bind (.lift fun _ => isDangling_of_optionalIndex) fun enclosing => ?_
  refine .bind (range_failsOnly _ _ _ _ _) fun fields => ?_
  refine .bind (range_failsOnly _ _ _ _ _) fun methods => ?_
  refine .bind (range_failsOnly _ _ _ _ _) fun properties => ?_
  refine .bind (range_failsOnly _ _ _ _ _) fun nested => ?_
  refine .bind (range_failsOnly _ _ _ _ _) fun listed => ?_
  refine .bind (name_failsOnly hname) fun name => ?_
  refine .bind (name_failsOnly hnamespace) fun namespaceName => ?_
  refine .bind (.mapM fun i _ => index_failsOnly _ _ _ _) fun nestedTypes => ?_
  refine .bind (listedReferences_failsOnly _ _ _ _) fun interfaces => ?_
  exact .bind (containedParameters_failsOnly _ _ _ _) fun genericParameters => .pure _

theorem makeModule_failsOnly (index : Nat) {row : ImageRow} (hname : rows.HasName row.name) :
    FailsOnly (makeModule rows index row) Fault.IsDangling :=
  .bind (range_failsOnly _ _ _ _ _) fun _ => .bind (name_failsOnly hname) fun _ => .pure _

theorem makeGenericParameter_failsOnly (index : Nat) {row : GenericParameterRow}
    (hname : rows.HasName row.name) :
    FailsOnly (makeGenericParameter rows index row) Fault.IsDangling := by
  refine .bind (index_failsOnly _ _ _ _) fun container => ?_
  refine .bind (index_failsOnly _ _ _ _) fun owner => ?_
  refine .bind (range_failsOnly _ _ _ _ _) fun range => ?_
  refine .bind (name_failsOnly hname) fun name => ?_
  exact .bind (listedReferences_failsOnly _ _ _ _) fun constraints => .pure _

/-- A row past the end of the parameters has no name, which can be read. -/
theorem makeParameter_failsOnly (hnamed : rows.Named) (index : Nat) :
    FailsOnly (makeParameter rows index) Fault.IsDangling := by
  have hname : rows.HasName
      ((rows.parameters[index]?).getD ⟨Strings.noString, Bounds.noIndex, 0⟩).name := by
    cases hrow : rows.parameters[index]? with
    | none => exact ⟨"", rfl⟩
    | some row => exact hnamed.parameters row (Array.mem_of_getElem? hrow)
  exact .bind (name_failsOnly hname) fun _ => .bind (reference_failsOnly _ _ _) fun _ => .pure _

theorem makeMethod_failsOnly (hnamed : rows.Named) (index : Nat) {row : MethodRow}
    (hname : rows.HasName row.name) : FailsOnly (makeMethod rows index row) Fault.IsDangling := by
  refine .bind (index_failsOnly _ _ _ _) fun declaringType => ?_
  refine .bind (range_failsOnly _ _ _ _ _) fun range => ?_
  refine .bind (.mapM fun i _ => makeParameter_failsOnly hnamed i) fun parameters => ?_
  refine .bind (name_failsOnly hname) fun name => ?_
  refine .bind (reference_failsOnly _ _ _) fun returnType => ?_
  exact .bind (containedParameters_failsOnly _ _ _ _) fun genericParameters => .pure _

theorem makeField_failsOnly (types : Array TypeDefinition) (index : Nat) {row : FieldRow}
    (hname : rows.HasName row.name) :
    FailsOnly (makeField rows types index row) Fault.IsDangling :=
  .bind (reference_failsOnly _ _ _) fun _ => .bind (name_failsOnly hname) fun _ => .pure _

theorem makeMethodSpec_failsOnly (index : Nat) (row : MethodSpecRow) :
    FailsOnly (makeMethodSpec rows index row) Fault.IsDangling := by
  refine .bind (index_failsOnly _ _ _ _) fun method => ?_
  refine .bind (argumentList_failsOnly _ _ _ _) fun classArguments => ?_
  refine .bind (argumentList_failsOnly _ _ _ _) fun arguments => ?_
  intro links fault hrun
  cases hrun

variable {fault : Fault}

theorem isDangling_of_accessor {type : TypeDefinition} {relative : Int} {index : Nat}
    {name : String} (h : accessor type relative index name = .error fault) : fault.IsDangling := by
  unfold accessor at h
  split at h
  · cases h
  · split at h
    · cases h
    · obtain rfl := Except.error.inj h
      rfl

theorem isDangling_of_makeProperty (hnamed : rows.Named) {types : Array TypeDefinition}
    {index : Nat} (h : makeProperty rows types index = .error fault) : fault.IsDangling := by
  unfold makeProperty at h
  rcases bind_eq_error h with hname | ⟨name, -, h⟩
  · exfalso
    cases hrow : rows.properties[index]? with
    | none =>
        rw [hrow] at hname
        cases hname
    | some row =>
        obtain ⟨text, htext⟩ := hnamed.properties row (Array.mem_of_getElem? hrow)
        rw [hrow, Option.getD_some, htext] at hname
        cases hname
  · dsimp only at h
    split at h
    · rcases bind_eq_error h with hgetter | ⟨getter, -, h⟩
      · exact isDangling_of_accessor hgetter
      · rcases bind_eq_error h with hsetter | ⟨setter, -, h⟩
        · exact isDangling_of_accessor hsetter
        · cases h
    · cases h

theorem isDangling_of_makeProperties (hnamed : rows.Named) {types : Array TypeDefinition}
    (h : makeProperties rows types = .error fault) : fault.IsDangling := by
  unfold makeProperties at h
  rcases bind_eq_error h with hlisted | ⟨_, -, h⟩
  · obtain ⟨index, -, hfault⟩ := exists_of_mapM_eq_error hlisted
    exact isDangling_of_makeProperty hnamed hfault
  · rcases bind_eq_error h with hall | ⟨_, -, h⟩
    · obtain ⟨index, -, hfault⟩ := exists_of_mapM_eq_error hall
      exact isDangling_of_makeProperty hnamed hfault
    · cases h

end Makers

/-- How the linking of some rows fails: with a reference out of its table or to itself, with a chain
of types that does not end, or with the value of a row of the default values. -/
inductive GraphFault (rows : Rows) (fault : Fault) : Prop
  | dangling (hkind : fault.kind = .danglingTypeReference)
  | cyclic (hkind : fault.kind = .cyclicTypeNesting)
  | default {index : Nat} {row : DefaultRow} (hrow : rows.defaults[index]? = some row)
      (hfault : fault.IsMalformedDefault index)
      (hread : Constant.read rows.release rows.defaultData (Link.row rows row.type.toNat).kind
        row.data index = .error fault)

theorem checkTypes_failsOnly (types : Array TypeDefinition)
    (relation : TypeDefinition → Option Nat) (phrase : String) :
    FailsOnly (liftM (Chain.checkTypes types relation phrase)) (GraphFault rows) := by
  refine .lift fun fault h => ?_
  unfold Chain.checkTypes at h
  cases hcheck : Chain.check (Chain.step types relation) types.size with
  | ok _ =>
      rw [hcheck] at h
      cases h
  | error type =>
      rw [hcheck] at h
      obtain rfl := Except.error.inj h
      exact .cyclic rfl

theorem makeDefault_failsOnly {index : Nat} {row : DefaultRow}
    (hrow : rows.defaults[index]? = some row) :
    FailsOnly (liftM (makeDefault rows index row)) (GraphFault rows) := by
  refine .lift fun fault h => ?_
  unfold makeDefault at h
  rcases bind_eq_error h with hfield | ⟨field, -, h⟩
  · exact .dangling (isDangling_of_index hfield)
  · rcases bind_eq_error h with htype | ⟨type, htype, h⟩
    · exact .dangling (isDangling_of_index htype)
    · rcases bind_eq_error h with hread | ⟨value, -, h⟩
      · obtain ⟨htype, -⟩ := Bounds.index_eq_ok_iff.mp htype
        refine .default hrow (Constant.isMalformedDefault_of_read hread) ?_
        rw [htype, Int.toNat_natCast]
        exact hread
      · cases h

theorem link_failsOnly (hnamed : rows.Named) : FailsOnly (link rows) (GraphFault rows) := by
  have himp : ∀ fault : Fault, fault.IsDangling → GraphFault rows fault := fun _ => .dangling
  refine .bind (.imp (forRows_failsOnly fun index row hrow =>
    have hnames := hnamed.types row (Array.mem_of_getElem? hrow)
    makeType_failsOnly index hnames.1 hnames.2) himp) ?_
  intro unassigned
  refine .bind (checkTypes_failsOnly _ _ _) fun _ => .bind (checkTypes_failsOnly _ _ _) fun _ => ?_
  refine .bind (.imp (forRows_failsOnly fun index row hrow =>
    makeModule_failsOnly index (hnamed.images row (Array.mem_of_getElem? hrow))) himp) ?_
  intro modules
  refine .bind (.imp (forRows_failsOnly fun index row hrow =>
    makeGenericParameter_failsOnly index
      (hnamed.genericParameters row (Array.mem_of_getElem? hrow))) himp) ?_
  intro genericParameters
  refine .bind (.imp (forRows_failsOnly fun index row hrow =>
    makeMethod_failsOnly hnamed index (hnamed.methods row (Array.mem_of_getElem? hrow))) himp) ?_
  intro methods
  refine .bind (.imp (forRows_failsOnly fun index row hrow =>
    makeField_failsOnly _ index (hnamed.fields row (Array.mem_of_getElem? hrow))) himp) ?_
  intro bare
  refine .bind (.mapM ?_) ?_
  · rintro ⟨row, index⟩ hrow
    rw [List.mem_zipIdx_iff_getElem?, Array.getElem?_toList] at hrow
    exact makeDefault_failsOnly hrow
  · intro defaults
    refine .bind (.lift fun fault h => .dangling (isDangling_of_makeProperties hnamed h)) ?_
    intro properties
    refine .bind (.imp (forRows_failsOnly fun index row _ =>
      makeMethodSpec_failsOnly index row) himp) ?_
    exact fun methodSpecs => .getBind fun links => .pure _

theorem graphFault_of_build {metadata : Metadata} {fault : Fault} (hnamed : metadata.rows.Named)
    (h : (build metadata).outcome.1 = .error fault) : GraphFault metadata.rows fault := by
  rw [outcome_build, ofRows] at h
  exact link_failsOnly hnamed {} fault (map_eq_error h)

/-- Building a graph from metadata that has been read comes to an end, with a graph or with a fault
of the graph. There is no graph if a row that a definition uses leads to a cycle of rows. -/
theorem build_of_read {data : ByteArray} {override : Option Double} {metadata : Metadata}
    (h : (Metadata.read data override).outcome.1 = .ok metadata) :
    LoopsEnd metadata.rows ∧
      ((∃ graph, (build metadata).outcome.1 = .ok graph) ∨
        ∃ fault, (build metadata).outcome.1 = .error fault ∧ GraphFault metadata.rows fault) ∧
      ∀ index, metadata.rows.Uses index → metadata.rows.LeadsToCycle index →
        ¬∃ graph, (build metadata).outcome.1 = .ok graph := by
  refine ⟨loopsEnd metadata.rows, ?_, ?_⟩
  · cases houtcome : (build metadata).outcome.1 with
    | ok graph => exact Or.inl ⟨graph, rfl⟩
    | error fault => exact Or.inr ⟨fault, rfl, graphFault_of_build (named_of_read h) houtcome⟩
  · rintro index huses hcycle ⟨graph, hgraph⟩
    obtain ⟨links, hlinked⟩ := exists_linked_of_build hgraph
    exact not_linked_of_leadsToCycle huses hcycle hlinked

/-- A blob with one field, whose type is an array of itself. -/
def loopData : ByteArray :=
  let zeros (count : Nat) : List UInt8 := List.replicate count 0
  ⟨([0xAF, 0x1B, 0xB1, 0xFA, 27, 0, 0, 0] ++ zeros 64 ++ [184, 0, 0, 0, 12, 0, 0, 0] ++ zeros 56 ++
    [196, 0, 0, 0, 8, 0, 0, 0] ++ zeros 40 ++ [0xFF, 0xFF, 0xFF, 0xFF] ++ zeros 8 ++ zeros 6 ++
    [0x1D, 0]).toArray⟩

def loopTables : Metadata where
  data := loopData
  header := ⟨Header.expectedSanity, 27, .v27_0, Header.declaredTables loopData .v27_0⟩
  tables := Release.v27_0.recordTables.map fun table =>
    (table, if table = .fields then #[[-1, 0, 0]]
      else if table = .typeReferences then #[[0, 0, 0x1D, 0]] else #[])

theorem read_loopData : (Metadata.read loopData none).outcome.1 = .ok loopTables := by
  have hsize : ¬loopData.size < 8 := by decide +kernel
  have hsanity : Bytes.littleEndian loopData 0 4 = Header.expectedSanity := by decide +kernel
  have hversion : Header.versionField loopData = 27 := by decide +kernel
  have hread : Header.readWith loopData Header.expectedSanity 27 .v27_0 =
      .ok loopTables.header := by cbv
  have hrelease : (Header.chooseRelease loopData 27 none).outcome.1 = .ok .v27_0 := rfl
  have hheader : (Header.read loopData none).outcome.1 = .ok loopTables.header := by
    rw [Header.outcome_read, if_neg hsize, hsanity, if_neg (not_not.mpr rfl), hversion, hrelease,
      ok_bind, hread]
  have htables : Metadata.readTables loopData loopTables.header
      loopTables.header.release.recordTables = .ok loopTables.tables := by
    decide +kernel
  rw [Metadata.outcome_read, hheader, ok_bind, htables, ok_bind]
  rfl

set_option maxRecDepth 2048 in
theorem build_loopTables : ∃ fault, (build loopTables).outcome.1 = .error fault ∧
    GraphFault loopTables.rows fault := by
  have hfield : loopTables.rows.fields[0]? = some ⟨-1, 0, 0⟩ := by cbv
  have hreference : loopTables.rows.references[0]? = some ⟨0, 0, 0x1D, 0⟩ := by cbv
  have hrow : valueAt? loopTables.rows.references 0 = some ⟨0, 0, 0x1D, 0⟩ := hreference
  have huses : loopTables.rows.Uses 0 := .field (Array.mem_of_getElem? hfield)
  have hrefers : loopTables.rows.Refers 0 0 := .element hrow rfl
  obtain ⟨-, hends, hcycles⟩ := build_of_read read_loopData
  rcases hends with hgraph | hfault
  · exact absurd hgraph (hcycles 0 huses ⟨0, .refl, .single hrefers⟩)
  · exact hfault

end TypeGraph

end TypeAtlas
