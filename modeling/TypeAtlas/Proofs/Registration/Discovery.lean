import TypeAtlas.Proofs.Registration.Search
import TypeAtlas.Registration.Locate

namespace TypeAtlas.Registrations

variable {memory : Memory} {graph : TypeGraph} {hints : Hints} {symbols : List Symbol}
  {release : Release} {fault : Fault}

/-- One of some addresses is known and not zero. -/
def Given (addresses : List (Option Int)) : Prop :=
  ∃ address, some address ∈ addresses ∧ address ≠ 0

/-- Where a code registration may be, in the order in which the addresses are tried. -/
def codeHints (hints : Hints) (symbols : List Symbol) : List (Option Int) :=
  [hints.code, Symbol.lookup? symbols codeSymbol]

/-- Where a metadata registration may be, in the order in which the addresses are tried. -/
def metadataHints (hints : Hints) (symbols : List Symbol) : List (Option Int) :=
  [hints.metadata, Symbol.lookup? symbols metadataSymbol]

def codeAddress (memory : Memory) (graph : TypeGraph) (hints : Hints) (symbols : List Symbol) :
    Except Fault (Option Int) :=
  firstAddress (codeHints hints symbols) fun _ => Scan.code memory graph

def metadataAddress (memory : Memory) (graph : TypeGraph) (hints : Hints)
    (symbols : List Symbol) : Except Fault (Option Int) :=
  firstAddress (metadataHints hints symbols) fun _ => Scan.metadata memory graph

section Addresses

variable {given : List (Option Int)} {scan : Unit → Except Fault (Option Int)}

theorem given_iff : Given given ↔ ((given.filterMap id).find? (· != 0)).isSome = true := by
  rw [List.find?_isSome]
  simp [Given]

theorem firstAddress_of_not_given (h : ¬Given given) : firstAddress given scan = scan () := by
  rw [given_iff, Bool.not_eq_true, Option.isSome_eq_false_iff, Option.isNone_iff_eq_none] at h
  rw [firstAddress, h]

theorem firstAddress_isOk_iff :
    (∃ found, firstAddress given scan = .ok found) ↔
      Given given ∨ ∃ found, scan () = .ok found := by
  by_cases h : Given given
  · obtain ⟨address, haddress⟩ := Option.isSome_iff_exists.mp (given_iff.mp h)
    have hfound : firstAddress given scan = .ok (some address) := by rw [firstAddress, haddress]
    exact ⟨fun _ => Or.inl h, fun _ => ⟨_, hfound⟩⟩
  · rw [firstAddress_of_not_given h, or_iff_right h]

end Addresses

theorem find_eq (memory : Memory) (graph : TypeGraph) (hints : Hints) (symbols : List Symbol) :
    find memory graph hints symbols = (do
      let codeAt ← codeAddress memory graph hints symbols
      let metadataAt ← metadataAddress memory graph hints symbols
      return {
        code := (readCode memory graph.release codeAt).1
        metadata := (readMetadata memory graph.release metadataAt).1
        issues := (readCode memory graph.release codeAt).2 ++
          (readMetadata memory graph.release metadataAt).2 }) := rfl

/-- Discovery answers if an address of the code registration is given, or if all that a scan for it
looks for fits the width of pointers. The scan for the metadata registration always answers. -/
theorem find_isOk_iff (hcount : Scan.Fits memory.width graph.types.size) :
    (∃ registrations, find memory graph hints symbols = .ok registrations) ↔
      Given (codeHints hints symbols) ∨ Scan.CodeFits memory graph := by
  have haddress : (∃ found, codeAddress memory graph hints symbols = .ok found) ↔
      Given (codeHints hints symbols) ∨ Scan.CodeFits memory graph := by
    rw [← Scan.code_isOk_iff]
    exact firstAddress_isOk_iff
  rw [← haddress, find_eq]
  constructor
  · rintro ⟨registrations, h⟩
    obtain ⟨codeAt, hcode, -⟩ := bind_eq_ok h
    exact ⟨codeAt, hcode⟩
  · rintro ⟨codeAt, hcode⟩
    obtain ⟨metadataAt, hmetadata⟩ :
        ∃ found, metadataAddress memory graph hints symbols = .ok found :=
      firstAddress_isOk_iff.mpr (Or.inr (Scan.metadata_isOk_of_fits hcount))
    rw [hcode, hmetadata]
    exact ⟨_, rfl⟩

theorem kind_of_find (hcount : Scan.Fits memory.width graph.types.size)
    (h : find memory graph hints symbols = .error fault) : fault.kind = .outOfRange := by
  rw [find_eq] at h
  rcases bind_eq_error h with hcode | ⟨codeAt, -, h⟩
  · by_cases hgiven : Given (codeHints hints symbols)
    · obtain ⟨found, hfound⟩ := firstAddress_isOk_iff.mpr (Or.inl hgiven)
      cases hcode.symm.trans hfound
    · rw [codeAddress, firstAddress_of_not_given hgiven] at hcode
      exact Scan.kind_of_code hcode
  · obtain ⟨metadataAt, hmetadata⟩ :
        ∃ found, metadataAddress memory graph hints symbols = .ok found :=
      firstAddress_isOk_iff.mpr (Or.inr (Scan.metadata_isOk_of_fits hcount))
    rw [hmetadata] at h
    cases h

section Failures

/-- What can go wrong with the code registration. -/
inductive CodeFailure (memory : Memory) (release : Release) : Option Int → Fault → Prop
  | missing :
      CodeFailure memory release none
        (Registrations.missing "Code registration not found" "code_registration")
  | directory {address : Int} {fault : Fault}
      (h : CodeRegistration.directory memory release address = .error fault) :
      CodeFailure memory release (some address)
        (unreadable "code registration" "code_registration" address fault)
  | module {address : Int} {slots : Slots} {modules : List Nat} {index module : Nat} {fault : Fault}
      (hdirectory : CodeRegistration.directory memory release address = .ok (slots, modules))
      (hmodule : modules[index]? = some module)
      (h : CodeGenModule.read memory release index module = .error fault) :
      CodeFailure memory release (some address) fault
  | genericPointers {address : Int} {slots : Slots} {modules : List Nat} {fault : Fault}
      (hdirectory : CodeRegistration.directory memory release address = .ok (slots, modules))
      (h : memory.readPointers (slots.value "generic_method_pointers")
        (slots.value "generic_method_pointers_count") "generic_method_pointers" = .error fault) :
      CodeFailure memory release (some address)
        (unreadable "code registration" "code_registration" address fault)

/-- What can go wrong with the metadata registration. -/
inductive MetadataFailure (memory : Memory) (release : Release) : Option Int → Fault → Prop
  | missing :
      MetadataFailure memory release none
        (Registrations.missing "Metadata registration not found" "metadata_registration")
  | unreadable {address : Int} {fault : Fault}
      (h : MetadataRegistration.read memory release address = .error fault) :
      MetadataFailure memory release (some address)
        (Registrations.unreadable "metadata registration" "metadata_registration" address fault)

/-- What can go wrong while the registration structures are discovered. -/
inductive Failure (memory : Memory) (graph : TypeGraph) (hints : Hints) (symbols : List Symbol) :
    Fault → Prop
  | code {address : Option Int} {fault : Fault}
      (haddress : codeAddress memory graph hints symbols = .ok address)
      (h : CodeFailure memory graph.release address fault) :
      Failure memory graph hints symbols fault
  | metadata {address : Option Int} {fault : Fault}
      (haddress : metadataAddress memory graph hints symbols = .ok address)
      (h : MetadataFailure memory graph.release address fault) :
      Failure memory graph hints symbols fault

theorem mem_faults_iff {results : List (Except Fault CodeGenModule)} :
    fault ∈ CodeGenModule.faults results ↔ .error fault ∈ results := by
  simp only [CodeGenModule.faults, List.mem_filterMap]
  constructor
  · rintro ⟨result, hresult, h⟩
    cases result with
    | ok module => cases h
    | error found =>
        obtain rfl := Option.some.inj h
        exact hresult
  · intro h
    exact ⟨_, h, rfl⟩

theorem mem_moduleFaults_iff {modules : List Nat} :
    fault ∈ CodeGenModule.faults (modules.zipIdx.map fun (module, index) =>
        CodeGenModule.read memory release index module) ↔
      ∃ (index module : Nat), modules[index]? = some module ∧
        CodeGenModule.read memory release index module = .error fault := by
  simp only [mem_faults_iff, List.mem_map, Prod.exists, List.mem_zipIdx_iff_getElem?]
  exact exists_comm

theorem readCode_of_unreadable {address : Int} {found : Fault}
    (h : CodeRegistration.directory memory release address = .error found) :
    (readCode memory release (some address)).2 =
      [unreadable "code registration" "code_registration" address found] := by
  simp only [readCode, CodeRegistration.read, h, List.nil_append]

theorem readCode_of_readable {address : Int} {slots : Slots} {modules : List Nat}
    (h : CodeRegistration.directory memory release address = .ok (slots, modules)) :
    (readCode memory release (some address)).2 =
      CodeGenModule.faults (modules.zipIdx.map fun (module, index) =>
          CodeGenModule.read memory release index module) ++
        match memory.readPointers (slots.value "generic_method_pointers")
          (slots.value "generic_method_pointers_count") "generic_method_pointers" with
        | .ok _ => []
        | .error found =>
            [unreadable "code registration" "code_registration" address found] := by
  simp only [readCode, CodeRegistration.read, h]
  cases memory.readPointers (slots.value "generic_method_pointers")
    (slots.value "generic_method_pointers_count") "generic_method_pointers" with
  | error found => rfl
  | ok pointers => exact (List.append_nil _).symm

theorem codeFailure_of_unreadable {address : Int} {found : Fault}
    (h : CodeRegistration.directory memory release address = .error found) :
    CodeFailure memory release (some address) fault ↔
      fault = unreadable "code registration" "code_registration" address found := by
  constructor
  · rintro (_ | hother | ⟨hother, -, -⟩ | ⟨hother, -⟩)
    · obtain rfl := Except.error.inj (h.symm.trans hother)
      rfl
    · cases h.symm.trans hother
    · cases h.symm.trans hother
  · rintro rfl
    exact .directory h

theorem codeFailure_of_readable {address : Int} {slots : Slots} {modules : List Nat}
    (h : CodeRegistration.directory memory release address = .ok (slots, modules)) :
    CodeFailure memory release (some address) fault ↔
      (∃ (index module : Nat), modules[index]? = some module ∧
        CodeGenModule.read memory release index module = .error fault) ∨
      ∃ found, memory.readPointers (slots.value "generic_method_pointers")
          (slots.value "generic_method_pointers_count") "generic_method_pointers" =
            .error found ∧
        fault = unreadable "code registration" "code_registration" address found := by
  constructor
  · rintro (_ | hother | ⟨hother, hmodule, hread⟩ | ⟨hother, hread⟩)
    · cases h.symm.trans hother
    · obtain ⟨rfl, rfl⟩ := Prod.mk.inj (Except.ok.inj (h.symm.trans hother))
      exact Or.inl ⟨_, _, hmodule, hread⟩
    · obtain ⟨rfl, rfl⟩ := Prod.mk.inj (Except.ok.inj (h.symm.trans hother))
      exact Or.inr ⟨_, hread, rfl⟩
  · rintro (⟨index, module, hmodule, hread⟩ | ⟨found, hread, rfl⟩)
    · exact .module h hmodule hread
    · exact .genericPointers h hread

theorem mem_readCode_iff {address : Option Int} :
    fault ∈ (readCode memory release address).2 ↔ CodeFailure memory release address fault := by
  cases address with
  | none =>
      refine List.mem_singleton.trans ⟨?_, ?_⟩
      · rintro rfl
        exact .missing
      · rintro ⟨⟩
        rfl
  | some address =>
      cases hdirectory : CodeRegistration.directory memory release address with
      | error found =>
          rw [readCode_of_unreadable hdirectory, codeFailure_of_unreadable hdirectory]
          exact List.mem_singleton
      | ok found =>
          obtain ⟨slots, modules⟩ := found
          rw [readCode_of_readable hdirectory, codeFailure_of_readable hdirectory,
            List.mem_append, mem_moduleFaults_iff]
          refine or_congr Iff.rfl ?_
          cases memory.readPointers (slots.value "generic_method_pointers")
            (slots.value "generic_method_pointers_count") "generic_method_pointers" with
          | ok pointers => simp
          | error found => simp

theorem mem_readMetadata_iff {address : Option Int} :
    fault ∈ (readMetadata memory release address).2 ↔
      MetadataFailure memory release address fault := by
  cases address with
  | none =>
      refine List.mem_singleton.trans ⟨?_, ?_⟩
      · rintro rfl
        exact .missing
      · rintro ⟨⟩
        rfl
  | some address =>
      simp only [readMetadata]
      cases hread : MetadataRegistration.read memory release address with
      | ok found =>
          constructor
          · intro h
            cases h
          · rintro (_ | hother)
            cases hread.symm.trans hother
      | error found =>
          refine List.mem_singleton.trans ⟨?_, ?_⟩
          · rintro rfl
            exact .unreadable hread
          · rintro (_ | hother)
            obtain rfl := Except.error.inj (hread.symm.trans hother)
            rfl

theorem mem_issues_find_iff {registrations : Registrations}
    (h : find memory graph hints symbols = .ok registrations) :
    fault ∈ registrations.issues ↔ Failure memory graph hints symbols fault := by
  rw [find_eq] at h
  obtain ⟨codeAt, hcode, h⟩ := bind_eq_ok h
  obtain ⟨metadataAt, hmetadata, h⟩ := bind_eq_ok h
  obtain rfl := Except.ok.inj h
  rw [List.mem_append, mem_readCode_iff, mem_readMetadata_iff]
  constructor
  · rintro (hfailure | hfailure)
    · exact .code hcode hfailure
    · exact .metadata hmetadata hfailure
  · rintro (⟨hother, hfailure⟩ | ⟨hother, hfailure⟩)
    · obtain rfl := Except.ok.inj (hcode.symm.trans hother)
      exact Or.inl hfailure
    · obtain rfl := Except.ok.inj (hmetadata.symm.trans hother)
      exact Or.inr hfailure

end Failures

end TypeAtlas.Registrations
