import TypeAtlas.Proofs.Resolution.Addresses
/-!
Issues of a resolution: whatever keeps an entry from having an address is an issue, and nothing
else is one. The failures of a stage are told apart by what the stage finds.
-/

namespace TypeAtlas.Resolver

variable {resolver : Resolver} {fault : Fault}

/-- A method has no valid entry of its own. -/
def LacksEntry (resolver : Resolver) (method : Nat) : Prop :=
  method < resolver.graph.methods.size → resolver.ownAddress? method = none

/-- The module with the pointers for the methods of a module of the graph. -/
def pointersOf? (resolver : Resolver) (module : Module) : Option CodeGenModule :=
  resolver.registrations.code.bind fun code => code.module? module.name

/-- What can go wrong with the entry of a method. -/
inductive EntryFailure (resolver : Resolver) : Fault → Prop
  | notExecutable {method entry : Nat} (hmethod : method < resolver.graph.methods.size)
      (hentry : resolver.graph.methodAddresses[method]? = some entry)
      (hvalue : ¬(entry = 0 ∨ entry = 2 ^ 64 - 1)) (hcode : resolver.executable? entry = none) :
      EntryFailure resolver
        (Resolver.notExecutable (resolver.target entry) "method_addresses" method)

/-- What can go wrong with the pointers of a module, if one of its methods needs them. -/
inductive ModuleFailure (resolver : Resolver) (index : Nat) (module : Module) : Fault → Prop
  | noModule (hmissing : resolver.pointersOf? module = none) :
      ModuleFailure resolver index module (Resolver.noModule module.name index)
  | notAligned {found : CodeGenModule} (hfound : resolver.pointersOf? module = some found)
      (hlength : found.methodPointers.length ≠ (resolver.graph.methodsOf module).length) :
      ModuleFailure resolver index module
        (Resolver.notAligned module.name index (resolver.graph.methodsOf module).length found)
  | notExecutable {found : CodeGenModule} {position method pointer : Nat}
      (hfound : resolver.pointersOf? module = some found)
      (hlength : found.methodPointers.length = (resolver.graph.methodsOf module).length)
      (hmethod : (resolver.graph.methodsOf module)[position]? = some method)
      (hpointer : found.methodPointers[position]? = some pointer)
      (hlacks : resolver.LacksEntry method) (hnull : pointer ≠ 0)
      (hcode : resolver.executable? pointer = none) :
      ModuleFailure resolver index module
        (Resolver.notExecutable (resolver.target pointer) "methods" method)

/-- A row gives an address to an instantiation. -/
def Gives (resolver : Resolver) (pointers : Array Nat) (entry : GenericMethodEntry)
    (instantiation : Nat) : Prop :=
  ∃ pointer, genericParts? resolver.graph pointers entry = some (instantiation, pointer) ∧
    pointer ≠ 0 ∧ (resolver.executable? pointer).isSome = true

/-- What can go wrong with a row of the table of generic methods. A row whose instantiation has
got an address from an earlier one is passed over. -/
inductive GenericFailure (resolver : Resolver) (pointers : Array Nat)
    (entries : List GenericMethodEntry) : Fault → Prop
  | unknown {position : Nat} {entry : GenericMethodEntry}
      (hentry : entries[position]? = some entry)
      (hparts : genericParts? resolver.graph pointers entry = none) :
      GenericFailure resolver pointers entries (unknownGeneric position entry)
  | notExecutable {position : Nat} {entry : GenericMethodEntry} {instantiation pointer : Nat}
      (hentry : entries[position]? = some entry)
      (hparts : genericParts? resolver.graph pointers entry = some (instantiation, pointer))
      (hnull : pointer ≠ 0)
      (hfirst : ∀ earlier ∈ entries.take position,
        ¬Gives resolver pointers earlier instantiation)
      (hcode : resolver.executable? pointer = none) :
      GenericFailure resolver pointers entries
        (Resolver.notExecutable (resolver.target pointer) "generic_method_table" position)

/-- What can go wrong with the field offsets of a type. -/
inductive OffsetsFailure (resolver : Resolver) (pointers : Array Nat) : Fault → Prop
  | unreadable {index pointer : Nat} {type : TypeDefinition} {read : Fault}
      (htype : resolver.graph.types[index]? = some type) (hgeneric : type.isGeneric = false)
      (hfields : type.fields ≠ []) (hpointer : pointers[index]? = some pointer)
      (hnull : pointer ≠ 0)
      (hread : resolver.memory.readInts pointer type.fields.length "field_offsets" =
        .error read) :
      OffsetsFailure resolver pointers (unreadableOffsets index pointer read)

/-- What can go wrong while a graph is resolved. -/
inductive Failure (resolver : Resolver) : Fault → Prop
  | entry {fault : Fault} (h : EntryFailure resolver fault) : Failure resolver fault
  | module {fault : Fault} {index : Nat} {module : Module}
      (hmodule : resolver.graph.modules[index]? = some module)
      (hneeds : ∃ method ∈ resolver.graph.listedMethods module, resolver.LacksEntry method)
      (h : ModuleFailure resolver index module fault) : Failure resolver fault
  | generic {fault : Fault} {code : CodeRegistration} {metadata : MetadataRegistration}
      (hcode : resolver.registrations.code = some code)
      (hmetadata : resolver.registrations.metadata = some metadata)
      (h : GenericFailure resolver code.genericMethodPointers metadata.genericMethodTable fault) :
      Failure resolver fault
  | offsets {fault : Fault} {metadata : MetadataRegistration}
      (hmetadata : resolver.registrations.metadata = some metadata)
      (h : OffsetsFailure resolver metadata.fieldOffsets fault) : Failure resolver fault

theorem follow_eq_error_iff {pointer : Nat} {table : String} {index : Nat} :
    resolver.follow pointer table index = .error fault ↔
      resolver.executable? pointer = none ∧
        fault = notExecutable (resolver.target pointer) table index := by
  simp only [follow, executable?]
  split
  · simp
  · simp [eq_comm]

theorem isDirect_eq_false_iff {method : Nat} :
    isDirect resolver.directOutcomes method = false ↔ resolver.LacksEntry method := by
  unfold LacksEntry
  by_cases hmethod : method < resolver.graph.methods.size
  · rw [isDirect_directOutcomes hmethod]
    cases hown : resolver.ownAddress? method <;> simp [hmethod]
  · have hnone : resolver.directOutcomes[method]? = none := by
      simpa [directOutcomes] using hmethod
    simp [isDirect, hnone, hmethod]

theorem issue?_eq_some_iff {outcome : Outcome} :
    outcome.issue? = some fault ↔ outcome = some (.error fault) := by
  unfold Outcome.issue?
  split
  · simp
  · next hother =>
      constructor
      · intro h
        cases h
      · rintro rfl
        exact absurd rfl (hother fault)

theorem mem_entryIssues_iff :
    fault ∈ resolver.directOutcomes.toList.filterMap Outcome.issue? ↔
      EntryFailure resolver fault := by
  simp only [directOutcomes, Array.toList_map, Array.toList_range, List.filterMap_map,
    List.mem_filterMap, List.mem_range, Function.comp_apply, issue?_eq_some_iff]
  constructor
  · rintro ⟨method, hmethod, h⟩
    unfold direct at h
    split at h
    · cases h
    · next entry hentry =>
        split at h
        · cases h
        · next hvalue =>
            obtain ⟨hcode, rfl⟩ := follow_eq_error_iff.mp (Option.some.inj h)
            exact .notExecutable hmethod hentry (mt isSentinel_iff.mpr hvalue) hcode
  · rintro ⟨hmethod, hentry, hvalue, hcode⟩
    refine ⟨_, hmethod, ?_⟩
    unfold direct
    rw [hentry]
    dsimp only
    rw [if_neg (mt isSentinel_iff.mp hvalue)]
    exact congrArg some (follow_eq_error_iff.mpr ⟨hcode, rfl⟩)

section Modules

variable {index : Nat} {module : Module}

theorem issue?_aligned_iff {method pointer : Nat} :
    (resolver.aligned resolver.directOutcomes method pointer).issue? = some fault ↔
      resolver.LacksEntry method ∧ pointer ≠ 0 ∧ resolver.executable? pointer = none ∧
        fault = notExecutable (resolver.target pointer) "methods" method := by
  rw [issue?_eq_some_iff, ← isDirect_eq_false_iff, aligned]
  by_cases hdirect : isDirect resolver.directOutcomes method = true
  · simp [hdirect]
  · by_cases hpointer : pointer = 0
    · simp [hpointer]
    · simp [hdirect, hpointer, follow_eq_error_iff]

theorem needsPointers_iff :
    ¬(resolver.graph.methodsOf module).all (isDirect resolver.directOutcomes) = true ↔
      ∃ method ∈ resolver.graph.listedMethods module, resolver.LacksEntry method := by
  rw [List.all_eq_true]
  push Not
  simp only [TypeGraph.mem_methodsOf, ← isDirect_eq_false_iff, ne_eq, Bool.not_eq_true]

theorem mem_alignedIssues_iff {pointers : List Nat} :
    fault ∈ moduleIssues (.ok (((resolver.graph.methodsOf module).zip pointers).map
        fun (method, pointer) =>
          (method, resolver.aligned resolver.directOutcomes method pointer))) ↔
      ∃ (position method pointer : Nat),
        (resolver.graph.methodsOf module)[position]? = some method ∧
          pointers[position]? = some pointer ∧ resolver.LacksEntry method ∧ pointer ≠ 0 ∧
            resolver.executable? pointer = none ∧
              fault = notExecutable (resolver.target pointer) "methods" method := by
  simp only [moduleIssues, List.filterMap_map, List.mem_filterMap, Function.comp_apply,
    issue?_aligned_iff, Prod.exists, mem_zip_iff]
  constructor
  · rintro ⟨method, pointer, ⟨position, hmethod, hpointer⟩, h⟩
    exact ⟨position, method, pointer, hmethod, hpointer, h⟩
  · rintro ⟨position, method, pointer, hmethod, hpointer, h⟩
    exact ⟨method, pointer, ⟨position, hmethod, hpointer⟩, h⟩

theorem moduleFailure_of_none (h : resolver.pointersOf? module = none) :
    ModuleFailure resolver index module fault ↔ fault = noModule module.name index := by
  constructor
  · rintro (_ | ⟨hfound, -⟩ | ⟨hfound, -⟩)
    · rfl
    · cases h.symm.trans hfound
    · cases h.symm.trans hfound
  · rintro rfl
    exact .noModule h

theorem moduleFailure_of_length_ne {found : CodeGenModule}
    (h : resolver.pointersOf? module = some found)
    (hlength : found.methodPointers.length ≠ (resolver.graph.methodsOf module).length) :
    ModuleFailure resolver index module fault ↔
      fault = notAligned module.name index (resolver.graph.methodsOf module).length found := by
  constructor
  · rintro (hnone | ⟨hfound, -⟩ | ⟨hfound, heq, -⟩)
    · cases h.symm.trans hnone
    · obtain rfl := Option.some.inj (h.symm.trans hfound)
      rfl
    · obtain rfl := Option.some.inj (h.symm.trans hfound)
      exact absurd heq hlength
  · rintro rfl
    exact .notAligned h hlength

theorem moduleFailure_of_length_eq {found : CodeGenModule}
    (h : resolver.pointersOf? module = some found)
    (hlength : found.methodPointers.length = (resolver.graph.methodsOf module).length) :
    ModuleFailure resolver index module fault ↔
      ∃ (position method pointer : Nat),
        (resolver.graph.methodsOf module)[position]? = some method ∧
          found.methodPointers[position]? = some pointer ∧ resolver.LacksEntry method ∧
            pointer ≠ 0 ∧ resolver.executable? pointer = none ∧
              fault = notExecutable (resolver.target pointer) "methods" method := by
  constructor
  · rintro (hnone | ⟨hfound, hne⟩ | ⟨hfound, -, hmethod, hpointer, hlacks, hnull, hcode⟩)
    · cases h.symm.trans hnone
    · obtain rfl := Option.some.inj (h.symm.trans hfound)
      exact absurd hlength hne
    · obtain rfl := Option.some.inj (h.symm.trans hfound)
      exact ⟨_, _, _, hmethod, hpointer, hlacks, hnull, hcode, rfl⟩
  · rintro ⟨position, method, pointer, hmethod, hpointer, hlacks, hnull, hcode, rfl⟩
    exact .notExecutable h hlength hmethod hpointer hlacks hnull hcode

theorem mem_moduleIssues_iff :
    fault ∈ moduleIssues (resolver.moduleOutcomes resolver.directOutcomes index module) ↔
      (∃ method ∈ resolver.graph.listedMethods module, resolver.LacksEntry method) ∧
        ModuleFailure resolver index module fault := by
  rw [← needsPointers_iff]
  unfold moduleOutcomes
  dsimp only
  split
  · next hall => simp [hall, moduleIssues]
  · next hneeds =>
      rw [and_iff_right hneeds]
      cases hfound : resolver.pointersOf? module with
      | none =>
          rw [moduleFailure_of_none hfound]
          unfold pointersOf? at hfound
          rw [hfound]
          exact List.mem_singleton
      | some found =>
          by_cases hlength :
              found.methodPointers.length = (resolver.graph.methodsOf module).length
          · rw [moduleFailure_of_length_eq hfound hlength, ← mem_alignedIssues_iff]
            unfold pointersOf? at hfound
            rw [hfound]
            dsimp only
            rw [if_pos hlength]
          · rw [moduleFailure_of_length_ne hfound hlength]
            unfold pointersOf? at hfound
            rw [hfound]
            dsimp only
            rw [if_neg hlength]
            exact List.mem_singleton

end Modules

section Generics

variable {pointers : Array Nat} {found : List (Nat × Int)} {entry : GenericMethodEntry}
  {entries : List GenericMethodEntry}

/-- The addresses of instantiations once a row has been looked at. -/
def foundAfter (resolver : Resolver) (pointers : Array Nat) (found : List (Nat × Int))
    (entry : GenericMethodEntry) : List (Nat × Int) :=
  match genericParts? resolver.graph pointers entry with
  | none => found
  | some (instantiation, pointer) =>
      if pointer == 0 || (found.lookup instantiation).isSome then found
      else
        match resolver.executable? pointer with
        | none => found
        | some address => (instantiation, address) :: found

/-- The issue with a row, given what the rows in front of it have found. -/
def rowIssue? (resolver : Resolver) (pointers : Array Nat) (found : List (Nat × Int))
    (index : Nat) (entry : GenericMethodEntry) : Option Fault :=
  match genericParts? resolver.graph pointers entry with
  | none => some (unknownGeneric index entry)
  | some (instantiation, pointer) =>
      if pointer == 0 || (found.lookup instantiation).isSome then none
      else
        match resolver.executable? pointer with
        | none => some (notExecutable (resolver.target pointer) "generic_method_table" index)
        | some _ => none

theorem genericFrom_cons (index : Nat) :
    resolver.genericFrom pointers found index (entry :: entries) =
      let rest := resolver.genericFrom pointers (resolver.foundAfter pointers found entry)
        (index + 1) entries
      (rest.1, (resolver.rowIssue? pointers found index entry).toList ++ rest.2) := by
  rw [genericFrom, rowIssue?, foundAfter]
  cases hparts : genericParts? resolver.graph pointers entry with
  | none => rfl
  | some parts =>
      obtain ⟨instantiation, pointer⟩ := parts
      dsimp only
      by_cases hpassed : (pointer == 0 || (found.lookup instantiation).isSome) = true
      · rw [if_pos hpassed, if_pos hpassed, if_pos hpassed]
        rfl
      · rw [if_neg hpassed, if_neg hpassed, if_neg hpassed]
        unfold follow executable?
        by_cases hcode : resolver.memory.space.isExecutable (resolver.target pointer) = true
        · simp [hcode]
        · simp [hcode]

/-- The address that a row gives to an instantiation. -/
def givenBy? (resolver : Resolver) (pointers : Array Nat) (instantiation : Nat)
    (entry : GenericMethodEntry) : Option Int := do
  let (other, pointer) ← genericParts? resolver.graph pointers entry
  if other = instantiation ∧ pointer ≠ 0 then resolver.executable? pointer else none

theorem gives_iff {instantiation : Nat} :
    resolver.Gives pointers entry instantiation ↔
      (resolver.givenBy? pointers instantiation entry).isSome = true := by
  unfold Gives givenBy?
  cases genericParts? resolver.graph pointers entry with
  | none => simp
  | some parts =>
      obtain ⟨other, pointer⟩ := parts
      by_cases hother : other = instantiation
      · by_cases hnull : pointer = 0
        · simp [hnull]
        · simp [hother, hnull]
      · simp [hother]

theorem mem_foundAfter_iff {instantiation : Nat} {address : Int} :
    (instantiation, address) ∈ resolver.foundAfter pointers found entry ↔
      (instantiation, address) ∈ found ∨ found.lookup instantiation = none ∧
        resolver.givenBy? pointers instantiation entry = some address := by
  unfold foundAfter givenBy?
  cases genericParts? resolver.graph pointers entry with
  | none => simp
  | some parts =>
      obtain ⟨other, pointer⟩ := parts
      simp only [Option.bind_eq_bind, Option.bind_some, Option.ite_none_right_eq_some]
      split
      · next hpassed =>
          rw [Bool.or_eq_true, beq_iff_eq, Option.isSome_iff_ne_none] at hpassed
          refine (or_iff_left ?_).symm
          rintro ⟨hnone, ⟨rfl, hnull⟩, -⟩
          exact hpassed.elim hnull fun hlookup => hlookup hnone
      · next hfresh =>
          rw [Bool.or_eq_true, beq_iff_eq, not_or, Bool.not_eq_true, Option.isSome_eq_false_iff,
            Option.isNone_iff_eq_none] at hfresh
          cases resolver.executable? pointer with
          | none => simp
          | some given =>
              dsimp only
              rw [List.mem_cons, Prod.mk.injEq, Option.some.injEq, or_comm]
              refine or_congr_right ⟨?_, ?_⟩
              · rintro ⟨rfl, rfl⟩
                exact ⟨hfresh.2, ⟨rfl, hfresh.1⟩, rfl⟩
              · rintro ⟨-, ⟨rfl, -⟩, rfl⟩
                exact ⟨rfl, rfl⟩

theorem isSome_lookup_iff_exists_mem {values : List (Nat × Int)} {row : Nat} :
    (values.lookup row).isSome = true ↔ ∃ value, (row, value) ∈ values := by
  simp [List.lookup_isSome_iff]

theorem isSome_lookup_foundAfter_iff {instantiation : Nat} :
    ((resolver.foundAfter pointers found entry).lookup instantiation).isSome = true ↔
      (found.lookup instantiation).isSome = true ∨
        resolver.Gives pointers entry instantiation := by
  have hnone : found.lookup instantiation = none ↔
      ¬∃ address, (instantiation, address) ∈ found := by
    rw [← isSome_lookup_iff_exists_mem, Option.not_isSome_iff_eq_none]
  rw [isSome_lookup_iff_exists_mem, isSome_lookup_iff_exists_mem, gives_iff,
    Option.isSome_iff_exists]
  simp only [mem_foundAfter_iff, exists_or, exists_and_left, hnone]
  exact or_and_left.trans (and_iff_right (Classical.em _))

/-- An instantiation has got an address, from before or from one of some rows. -/
def Settled (resolver : Resolver) (pointers : Array Nat) (found : List (Nat × Int))
    (rows : List GenericMethodEntry) (instantiation : Nat) : Prop :=
  (found.lookup instantiation).isSome = true ∨
    ∃ row ∈ rows, resolver.Gives pointers row instantiation

theorem settled_cons_iff {rows : List GenericMethodEntry} {instantiation : Nat} :
    resolver.Settled pointers found (entry :: rows) instantiation ↔
      resolver.Settled pointers (resolver.foundAfter pointers found entry) rows instantiation := by
  unfold Settled
  rw [isSome_lookup_foundAfter_iff]
  simp only [List.mem_cons, exists_eq_or_imp, or_assoc]

/-- What goes wrong with the row at a position, given the rows in front of it. -/
def RowFails (resolver : Resolver) (pointers : Array Nat) (found : List (Nat × Int))
    (rows : List GenericMethodEntry) (index : Nat) (entry : GenericMethodEntry) (fault : Fault) :
    Prop :=
  match genericParts? resolver.graph pointers entry with
  | none => fault = unknownGeneric index entry
  | some (instantiation, pointer) =>
      pointer ≠ 0 ∧ ¬resolver.Settled pointers found rows instantiation ∧
        resolver.executable? pointer = none ∧
          fault = notExecutable (resolver.target pointer) "generic_method_table" index

theorem rowFails_cons_iff {first : GenericMethodEntry} {rows : List GenericMethodEntry}
    {index : Nat} :
    resolver.RowFails pointers found (first :: rows) index entry fault ↔
      resolver.RowFails pointers (resolver.foundAfter pointers found first) rows index entry
        fault := by
  unfold RowFails
  split
  · exact Iff.rfl
  · rw [settled_cons_iff]

theorem rowIssue?_eq_some_iff {index : Nat} :
    resolver.rowIssue? pointers found index entry = some fault ↔
      resolver.RowFails pointers found [] index entry fault := by
  unfold rowIssue? RowFails Settled
  cases hparts : genericParts? resolver.graph pointers entry with
  | none => simp [eq_comm]
  | some parts =>
      obtain ⟨instantiation, pointer⟩ := parts
      dsimp only
      by_cases hnull : pointer = 0
      · simp [hnull]
      · cases hfound : found.lookup instantiation with
        | some address => simp
        | none => cases hcode : resolver.executable? pointer <;> simp [hnull, eq_comm (a := fault)]

theorem rowFails_foldl_iff {rows : List GenericMethodEntry} {index : Nat} :
    resolver.RowFails pointers (rows.foldl (resolver.foundAfter pointers) found) [] index entry
        fault ↔
      resolver.RowFails pointers found rows index entry fault := by
  induction rows generalizing found with
  | nil => exact Iff.rfl
  | cons first rows ih => rw [List.foldl_cons, ih, rowFails_cons_iff]

theorem addresses_genericFrom (index : Nat) :
    (resolver.genericFrom pointers found index entries).1 =
      entries.foldl (resolver.foundAfter pointers) found := by
  induction entries generalizing found index with
  | nil => rfl
  | cons entry entries ih =>
      rw [genericFrom_cons, List.foldl_cons]
      exact ih (index + 1)

/-- What goes wrong with the row at a position, once the rows in front of it have been looked at. -/
def issueAt? (resolver : Resolver) (pointers : Array Nat) (found : List (Nat × Int))
    (entries : List GenericMethodEntry) (index position : Nat) : Option Fault :=
  (entries[position]?).bind (resolver.rowIssue? pointers
    ((entries.take position).foldl (resolver.foundAfter pointers) found) (index + position))

theorem issues_genericFrom (index : Nat) :
    (resolver.genericFrom pointers found index entries).2 =
      (List.range entries.length).filterMap
        (resolver.issueAt? pointers found entries index) := by
  induction entries generalizing found index with
  | nil => rfl
  | cons first entries ih =>
      -- What the first row adds to the addresses is there before each later row is looked at.
      have hlater : resolver.issueAt? pointers found (first :: entries) index ∘ Nat.succ =
          resolver.issueAt? pointers (resolver.foundAfter pointers found first) entries
            (index + 1) := by
        funext position
        have hplace : index + (position + 1) = index + 1 + position := by omega
        simp only [issueAt?, Function.comp_apply, Nat.succ_eq_add_one, List.getElem?_cons_succ,
          List.take_succ_cons, List.foldl_cons, hplace]
      have hfirst : resolver.issueAt? pointers found (first :: entries) index 0 =
          resolver.rowIssue? pointers found index first := rfl
      rw [genericFrom_cons, List.length_cons, List.range_succ_eq_map, List.filterMap_cons,
        List.filterMap_map, hlater, hfirst, ← ih]
      cases resolver.rowIssue? pointers found index first <;> rfl

theorem issueAt?_eq_some_iff {index position : Nat} :
    resolver.issueAt? pointers found entries index position = some fault ↔
      ∃ entry, entries[position]? = some entry ∧
        resolver.RowFails pointers found (entries.take position) (index + position) entry
          fault := by
  rw [issueAt?, Option.bind_eq_some_iff]
  refine exists_congr fun entry => and_congr_right fun _ => ?_
  rw [rowIssue?_eq_some_iff, rowFails_foldl_iff]

theorem mem_genericFrom_iff {index : Nat} :
    fault ∈ (resolver.genericFrom pointers found index entries).2 ↔
      ∃ (position : Nat) (entry : GenericMethodEntry), entries[position]? = some entry ∧
        resolver.RowFails pointers found (entries.take position) (index + position) entry
          fault := by
  simp only [issues_genericFrom, List.mem_filterMap, issueAt?_eq_some_iff, List.mem_range]
  refine exists_congr fun position => and_iff_right_of_imp ?_
  rintro ⟨entry, hentry, -⟩
  exact (List.getElem?_eq_some_iff.mp hentry).1

theorem mem_genericIssues_iff :
    fault ∈ (resolver.genericFrom pointers [] 0 entries).2 ↔
      GenericFailure resolver pointers entries fault := by
  rw [mem_genericFrom_iff]
  constructor
  · rintro ⟨position, entry, hentry, h⟩
    rw [Nat.zero_add, RowFails] at h
    split at h
    · next hparts =>
        obtain rfl := h
        exact .unknown hentry hparts
    · next instantiation pointer hparts =>
        obtain ⟨hnull, hfirst, hcode, rfl⟩ := h
        exact .notExecutable hentry hparts hnull
          (fun row hrow hgives => hfirst (Or.inr ⟨row, hrow, hgives⟩)) hcode
  · rintro (⟨hentry, hparts⟩ | ⟨hentry, hparts, hnull, hfirst, hcode⟩)
    · refine ⟨_, _, hentry, ?_⟩
      rw [RowFails, hparts, Nat.zero_add]
    · refine ⟨_, _, hentry, ?_⟩
      rw [RowFails, hparts, Nat.zero_add]
      refine ⟨hnull, ?_, hcode, rfl⟩
      rintro (hfound | ⟨row, hrow, hgives⟩)
      · cases hfound
      · exact hfirst row hrow hgives

end Generics

section Offsets

variable {pointers : Array Nat} {index pointer : Nat} {type : TypeDefinition}

/-- The offsets of a type are read from a pointer: the type is not generic and has fields, and the
pointer in its place is not null. -/
structure ReadsFrom (pointers : Array Nat) (index : Nat) (type : TypeDefinition) (pointer : Nat) :
    Prop where
  notGeneric : type.isGeneric = false
  hasFields : type.fields ≠ []
  place : pointers[index]? = some pointer
  notNull : pointer ≠ 0

theorem ReadsFrom.unique {other : Nat} (h : ReadsFrom pointers index type pointer)
    (hother : ReadsFrom pointers index type other) : other = pointer :=
  Option.some.inj (hother.place.symm.trans h.place)

theorem typeOffsets_of_readsFrom (h : ReadsFrom pointers index type pointer) :
    resolver.typeOffsets pointers index type =
      ((resolver.memory.readInts pointer type.fields.length "field_offsets").map
        type.fields.zip).mapError (unreadableOffsets index pointer) := by
  unfold typeOffsets
  rw [h.place, Option.getD_some, if_neg (by simp [h.notGeneric, h.hasFields, h.notNull])]
  split <;> next hread => rw [hread]; rfl

theorem typeOffsets_of_readInts {offsets : List Int} (h : ReadsFrom pointers index type pointer)
    (hread : resolver.memory.readInts pointer type.fields.length "field_offsets" = .ok offsets) :
    resolver.typeOffsets pointers index type = .ok (type.fields.zip offsets) := by
  rw [typeOffsets_of_readsFrom h, hread]
  rfl

theorem typeOffsets_of_not_readsFrom (h : ¬∃ pointer, ReadsFrom pointers index type pointer) :
    resolver.typeOffsets pointers index type = .ok [] := by
  unfold typeOffsets
  refine if_pos ?_
  by_contra hneeded
  rw [Bool.or_eq_true, Bool.or_eq_true, List.isEmpty_iff, beq_iff_eq, not_or, not_or,
    Bool.not_eq_true] at hneeded
  obtain ⟨⟨hgeneric, hfields⟩, hnull⟩ := hneeded
  cases hpointer : pointers[index]? with
  | none => exact hnull (by rw [hpointer, Option.getD_none])
  | some pointer =>
      rw [hpointer, Option.getD_some] at hnull
      exact h ⟨pointer, hgeneric, hfields, hpointer, hnull⟩

theorem typeOffsets_eq_error_iff :
    resolver.typeOffsets pointers index type = .error fault ↔
      ∃ pointer read, ReadsFrom pointers index type pointer ∧
        resolver.memory.readInts pointer type.fields.length "field_offsets" = .error read ∧
          fault = unreadableOffsets index pointer read := by
  by_cases hreads : ∃ pointer, ReadsFrom pointers index type pointer
  · obtain ⟨pointer, hreads⟩ := hreads
    rw [typeOffsets_of_readsFrom hreads]
    constructor
    · intro h
      cases hread : resolver.memory.readInts pointer type.fields.length "field_offsets" with
      | ok offsets =>
          rw [hread] at h
          cases h
      | error read =>
          rw [hread] at h
          exact ⟨pointer, read, hreads, hread, (Except.error.inj h).symm⟩
    · rintro ⟨other, read, hother, hread, rfl⟩
      obtain rfl := hreads.unique hother
      rw [hread]
      rfl
  · rw [typeOffsets_of_not_readsFrom hreads]
    constructor
    · intro h
      cases h
    · rintro ⟨pointer, -, hpointer, -⟩
      exact absurd ⟨pointer, hpointer⟩ hreads

theorem mem_typeOffsets_iff {field : Nat} {offset : Int} :
    (field, offset) ∈ ((resolver.typeOffsets pointers index type).toOption.getD []) ↔
      ∃ (pointer : Nat) (offsets : List Int) (place : Nat), ReadsFrom pointers index type pointer ∧
        resolver.memory.readInts pointer type.fields.length "field_offsets" = .ok offsets ∧
          type.fields[place]? = some field ∧ offsets[place]? = some offset := by
  by_cases hreads : ∃ pointer, ReadsFrom pointers index type pointer
  · obtain ⟨pointer, hreads⟩ := hreads
    rw [typeOffsets_of_readsFrom hreads]
    cases hread : resolver.memory.readInts pointer type.fields.length "field_offsets" with
    | error read =>
        refine iff_of_false List.not_mem_nil ?_
        rintro ⟨other, offsets, -, hother, hoffsets, -⟩
        obtain rfl := hreads.unique hother
        cases hread.symm.trans hoffsets
    | ok offsets =>
        change (field, offset) ∈ type.fields.zip offsets ↔ _
        rw [mem_zip_iff]
        constructor
        · rintro ⟨place, hplace⟩
          exact ⟨pointer, offsets, place, hreads, hread, hplace⟩
        · rintro ⟨other, others, place, hother, hothers, hplace⟩
          obtain rfl := hreads.unique hother
          obtain rfl := Except.ok.inj (hread.symm.trans hothers)
          exact ⟨place, hplace⟩
  · rw [typeOffsets_of_not_readsFrom hreads]
    refine iff_of_false List.not_mem_nil ?_
    rintro ⟨pointer, -, -, hpointer, -⟩
    exact hreads ⟨pointer, hpointer⟩

end Offsets

theorem mem_offsetsIssues_iff :
    (∃ result ∈ resolver.allTypeOffsets, result = .error fault) ↔
      ∃ metadata, resolver.registrations.metadata = some metadata ∧
        OffsetsFailure resolver metadata.fieldOffsets fault := by
  unfold allTypeOffsets
  cases hmetadata : resolver.registrations.metadata with
  | none => simp
  | some metadata =>
      constructor
      · rintro ⟨result, hresult, rfl⟩
        obtain ⟨⟨type, index⟩, htype, h⟩ := List.mem_map.mp hresult
        rw [List.mem_zipIdx_iff_getElem?, Array.getElem?_toList] at htype
        obtain ⟨pointer, read, ⟨hgeneric, hfields, hpointer, hnull⟩, hread, rfl⟩ :=
          typeOffsets_eq_error_iff.mp h
        exact ⟨metadata, rfl, .unreadable htype hgeneric hfields hpointer hnull hread⟩
      · rintro ⟨other, heq, @⟨index, pointer, type, read, htype, hgeneric, hfields, hpointer, hnull,
          hread⟩⟩
        obtain rfl := Option.some.inj heq
        have hlisted : (type, index) ∈ resolver.graph.types.toList.zipIdx := by
          rw [List.mem_zipIdx_iff_getElem?, Array.getElem?_toList]
          exact htype
        exact ⟨_, List.mem_map_of_mem hlisted,
          typeOffsets_eq_error_iff.mpr ⟨_, _, ⟨hgeneric, hfields, hpointer, hnull⟩, hread, rfl⟩⟩

theorem mem_generics_iff :
    fault ∈ resolver.generics.2 ↔
      ∃ code metadata, resolver.registrations.code = some code ∧
        resolver.registrations.metadata = some metadata ∧
          GenericFailure resolver code.genericMethodPointers metadata.genericMethodTable fault := by
  unfold generics
  cases hcode : resolver.registrations.code with
  | none => simp
  | some code =>
      cases hmetadata : resolver.registrations.metadata with
      | none => simp
      | some metadata => simp [mem_genericIssues_iff]

theorem mem_allModuleIssues_iff :
    fault ∈ (resolver.allModuleOutcomes resolver.directOutcomes).flatMap moduleIssues ↔
      ∃ index module, resolver.graph.modules[index]? = some module ∧
        (∃ method ∈ resolver.graph.listedMethods module, resolver.LacksEntry method) ∧
          ModuleFailure resolver index module fault := by
  simp only [allModuleOutcomes, List.flatMap_map, List.mem_flatMap, Prod.exists,
    List.mem_zipIdx_iff_getElem?, Array.getElem?_toList, mem_moduleIssues_iff]
  exact exists_comm

/-- The issues of a resolution are those of its registrations, and what goes wrong while it
resolves. -/
theorem mem_issues_resolve_iff :
    fault ∈ resolver.resolve.report.issues ↔
      fault ∈ resolver.registrations.issues ∨ resolver.Failure fault := by
  have hissues : fault ∈ resolver.resolve.report.issues ↔
      (((fault ∈ resolver.registrations.issues ∨ EntryFailure resolver fault) ∨
        fault ∈ (resolver.allModuleOutcomes resolver.directOutcomes).flatMap moduleIssues) ∨
          fault ∈ resolver.generics.2) ∨
            ∃ result ∈ resolver.allTypeOffsets, result = .error fault := by
    rw [← mem_entryIssues_iff]
    simp only [resolve, List.mem_append, List.mem_filterMap]
    refine or_congr Iff.rfl (exists_congr fun result => and_congr_right fun _ => ?_)
    cases result <;> simp
  rw [hissues, mem_allModuleIssues_iff, mem_generics_iff, mem_offsetsIssues_iff]
  constructor
  · rintro ((((hregistration | hentry) | ⟨index, module, hmodule, hneeds, h⟩) |
      ⟨code, metadata, hcode, hmetadata, h⟩) | ⟨metadata, hmetadata, h⟩)
    · exact Or.inl hregistration
    · exact Or.inr (.entry hentry)
    · exact Or.inr (.module hmodule hneeds h)
    · exact Or.inr (.generic hcode hmetadata h)
    · exact Or.inr (.offsets hmetadata h)
  · rintro (hregistration | hfailure)
    · exact Or.inl (Or.inl (Or.inl (Or.inl hregistration)))
    · cases hfailure with
      | entry h => exact Or.inl (Or.inl (Or.inl (Or.inr h)))
      | module hmodule hneeds h => exact Or.inl (Or.inl (Or.inr ⟨_, _, hmodule, hneeds, h⟩))
      | generic hcode hmetadata h => exact Or.inl (Or.inr ⟨_, _, hcode, hmetadata, h⟩)
      | offsets hmetadata h => exact Or.inr ⟨_, hmetadata, h⟩

end TypeAtlas.Resolver
