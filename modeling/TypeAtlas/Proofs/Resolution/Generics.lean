import TypeAtlas.Proofs.Resolution.Issues

namespace TypeAtlas

/-- Of all numbers that give a value, the least one gives this value. -/
def FirstGives (gives : Nat → Int → Prop) (value : Int) : Prop :=
  ∃ first, IsLeast {index | ∃ given, gives index given} first ∧ gives first value

section Lists

variable {α β : Type} {items : List α} {give : α → Option Int} {value : Int}

theorem firstGives_of_findSome? (h : items.findSome? give = some value) :
    FirstGives (fun place given => (items[place]?).bind give = some given) value := by
  obtain ⟨front, item, back, rfl, hvalue, hfront⟩ := List.findSome?_eq_some_iff.mp h
  have hitem : ((front ++ item :: back)[front.length]?).bind give = some value := by
    simpa using hvalue
  refine ⟨front.length, ⟨⟨value, hitem⟩, ?_⟩, hitem⟩
  rintro place ⟨given, hgiven⟩
  by_contra hlt
  obtain ⟨other, hother, hgives⟩ := Option.bind_eq_some_iff.mp hgiven
  rw [List.getElem?_append_left (Nat.lt_of_not_le hlt)] at hother
  rw [hfront other (List.mem_of_getElem? hother)] at hgives
  cases hgives

theorem findSome?_eq_some_iff_firstGives :
    items.findSome? give = some value ↔
      FirstGives (fun place given => (items[place]?).bind give = some given) value := by
  refine ⟨firstGives_of_findSome?, ?_⟩
  rintro ⟨first, hleast, hfirst⟩
  cases hfound : items.findSome? give with
  | none =>
      obtain ⟨item, hitem, hgives⟩ := Option.bind_eq_some_iff.mp hfirst
      rw [List.findSome?_eq_none_iff.mp hfound item (List.mem_of_getElem? hitem)] at hgives
      cases hgives
  | some other =>
      obtain ⟨place, hplace, hgives⟩ := firstGives_of_findSome? hfound
      obtain rfl := hplace.unique hleast
      exact hgives.symm.trans hfirst

theorem forall₂_filterMap (f : Nat → Option β) (places : List Nat) :
    List.Forall₂ (fun place item => f place = some item)
      (places.filter fun place => (f place).isSome) (places.filterMap f) := by
  induction places with
  | nil => exact .nil
  | cons place places ih =>
      cases hitem : f place with
      | none => simpa [hitem] using ih
      | some item => simpa [hitem] using ih

end Lists

namespace Resolver

variable {resolver : Resolver} {pointers : Array Nat} {found : List (Nat × Int)}
  {entry : GenericMethodEntry} {entries : List GenericMethodEntry} {instantiation pointer : Nat}
  {address : Int} {fault : Fault} {code : CodeRegistration} {metadata : MetadataRegistration}

/-- A row refers to an instantiation by a method spec, and to a pointer by a slot. Both numbers are
signed. -/
structure RefersTo (graph : TypeGraph) (pointers : Array Nat) (entry : GenericMethodEntry)
    (instantiation pointer : Nat) : Prop where
  spec_nonneg : 0 ≤ entry.spec
  spec : graph.methodSpecs[entry.spec.toNat]? = some instantiation
  slot_nonneg : 0 ≤ entry.slot
  slot : pointers[entry.slot.toNat]? = some pointer

theorem genericParts?_eq_some_iff {graph : TypeGraph} :
    genericParts? graph pointers entry = some (instantiation, pointer) ↔
      RefersTo graph pointers entry instantiation pointer := by
  have hspec : graph.methodInstantiation? entry.spec = some instantiation ↔
      0 ≤ entry.spec ∧ graph.methodSpecs[entry.spec.toNat]? = some instantiation := by
    unfold TypeGraph.methodInstantiation?
    split
    · next n hn => simp [hn]
    · next n hn => simp [hn]
  have hsplit : genericParts? graph pointers entry = some (instantiation, pointer) ↔
      graph.methodInstantiation? entry.spec = some instantiation ∧
        ¬entry.slot < 0 ∧ pointers[entry.slot.toNat]? = some pointer := by
    unfold genericParts?
    cases graph.methodInstantiation? entry.spec with
    | none => simp
    | some other =>
        by_cases hslot : entry.slot < 0
        · simp [hslot]
        · cases pointers[entry.slot.toNat]? <;> simp [hslot]
  rw [hsplit, hspec, Int.not_lt]
  exact ⟨fun ⟨⟨h₁, h₂⟩, h₃, h₄⟩ => ⟨h₁, h₂, h₃, h₄⟩, fun ⟨h₁, h₂, h₃, h₄⟩ => ⟨⟨h₁, h₂⟩, h₃, h₄⟩⟩

theorem givenBy?_eq_some_iff :
    resolver.givenBy? pointers instantiation entry = some address ↔
      ∃ pointer, RefersTo resolver.graph pointers entry instantiation pointer ∧ pointer ≠ 0 ∧
        resolver.executable? pointer = some address := by
  simp only [← genericParts?_eq_some_iff, givenBy?]
  cases hparts : genericParts? resolver.graph pointers entry with
  | none => simp
  | some parts =>
      obtain ⟨other, pointer⟩ := parts
      simp only [Option.bind_eq_bind, Option.bind_some, Option.ite_none_right_eq_some,
        Option.some.injEq, Prod.mk.injEq]
      constructor
      · rintro ⟨⟨rfl, hnull⟩, haddress⟩
        exact ⟨pointer, ⟨rfl, rfl⟩, hnull, haddress⟩
      · rintro ⟨_, ⟨rfl, rfl⟩, hnull, haddress⟩
        exact ⟨⟨rfl, hnull⟩, haddress⟩

section Addresses

theorem lookup_foundAfter_eq_none_iff :
    (resolver.foundAfter pointers found entry).lookup instantiation = none ↔
      found.lookup instantiation = none ∧
        resolver.givenBy? pointers instantiation entry = none := by
  rw [← Option.not_isSome_iff_eq_none, isSome_lookup_foundAfter_iff, not_or, gives_iff,
    Option.not_isSome_iff_eq_none, Option.not_isSome_iff_eq_none]

theorem mem_foldl_foundAfter_iff :
    (instantiation, address) ∈ entries.foldl (resolver.foundAfter pointers) found ↔
      (instantiation, address) ∈ found ∨ found.lookup instantiation = none ∧
        entries.findSome? (resolver.givenBy? pointers instantiation) = some address := by
  induction entries generalizing found with
  | nil => simp
  | cons entry entries ih =>
      rw [List.foldl_cons, ih, mem_foundAfter_iff, lookup_foundAfter_eq_none_iff,
        List.findSome?_cons]
      cases resolver.givenBy? pointers instantiation entry <;> simp

theorem mem_generics_fst_iff (hcode : resolver.registrations.code = some code)
    (hmetadata : resolver.registrations.metadata = some metadata) :
    (instantiation, address) ∈ resolver.generics.1 ↔
      metadata.genericMethodTable.findSome?
        (resolver.givenBy? code.genericMethodPointers instantiation) = some address := by
  rw [generics, hcode, hmetadata]
  dsimp only
  rw [addresses_genericFrom, mem_foldl_foundAfter_iff]
  simp

theorem genericAddress?_eq_findSome? (hcode : resolver.registrations.code = some code)
    (hmetadata : resolver.registrations.metadata = some metadata)
    (hinstantiation : instantiation < resolver.graph.instantiations.size) :
    resolver.resolve.genericAddress? instantiation =
      metadata.genericMethodTable.findSome?
        (resolver.givenBy? code.genericMethodPointers instantiation) := by
  change ((tableOf resolver.graph.instantiations.size resolver.generics.1)[instantiation]?).join = _
  rw [getElem?_tableOf _ hinstantiation, Option.join_some]
  exact lookup_eq_of_mem_iff fun _ => mem_generics_fst_iff hcode hmetadata

end Addresses

/-- A row gives an address to an instantiation: it refers to the instantiation and to a pointer that
is not null, and the address that the pointer stands for is executable. -/
def GivesAt (resolver : Resolver) (pointers : Array Nat) (entries : List GenericMethodEntry)
    (row instantiation : Nat) (address : Int) : Prop :=
  ∃ entry pointer, entries[row]? = some entry ∧
    RefersTo resolver.graph pointers entry instantiation pointer ∧ pointer ≠ 0 ∧
      resolver.target pointer = address ∧ resolver.memory.space.isExecutable address = true

/-- A row has an issue: it refers to nothing, or it stands before all rows that give an address to
its instantiation, with a pointer that is not executable. -/
inductive HasIssue (resolver : Resolver) (pointers : Array Nat)
    (entries : List GenericMethodEntry) : (row : Nat) → Fault → Prop
  | unknown {row : Nat} {entry : GenericMethodEntry} (hentry : entries[row]? = some entry)
      (hnone : ∀ instantiation pointer,
        ¬RefersTo resolver.graph pointers entry instantiation pointer) :
      HasIssue resolver pointers entries row (unknownGeneric row entry)
  | notExecutable {row : Nat} {entry : GenericMethodEntry} {instantiation pointer : Nat}
      (hentry : entries[row]? = some entry)
      (hrefers : RefersTo resolver.graph pointers entry instantiation pointer)
      (hnull : pointer ≠ 0)
      (hcode : resolver.memory.space.isExecutable (resolver.target pointer) = false)
      (hfirst : ∀ giving address,
        resolver.GivesAt pointers entries giving instantiation address → row < giving) :
      HasIssue resolver pointers entries row
        (Resolver.notExecutable (resolver.target pointer) "generic_method_table" row)

theorem givesAt_iff {row : Nat} : resolver.GivesAt pointers entries row instantiation address ↔
    (entries[row]?).bind (resolver.givenBy? pointers instantiation) = some address := by
  simp only [GivesAt, Option.bind_eq_some_iff, givenBy?_eq_some_iff, executable?_eq_some_iff,
    exists_and_left, and_comm (a := resolver.target _ = address)]

theorem findSome?_eq_some_iff_firstGivesAt :
    entries.findSome? (resolver.givenBy? pointers instantiation) = some address ↔
      FirstGives (fun row => resolver.GivesAt pointers entries row instantiation) address := by
  rw [findSome?_eq_some_iff_firstGives]
  simp only [FirstGives, givesAt_iff]

theorem findSome?_eq_none_iff_forall_not_givesAt :
    entries.findSome? (resolver.givenBy? pointers instantiation) = none ↔
      ∀ row address, ¬resolver.GivesAt pointers entries row instantiation address := by
  simp only [givesAt_iff, ← ne_eq, ← Option.eq_none_iff_forall_ne_some, Option.bind_eq_none_iff,
    List.findSome?_eq_none_iff, List.mem_iff_getElem?, forall_exists_index]
  exact forall_comm

theorem RefersTo.unique {graph : TypeGraph} {other given : Nat}
    (h : RefersTo graph pointers entry instantiation pointer)
    (hother : RefersTo graph pointers entry other given) :
    other = instantiation ∧ given = pointer :=
  ⟨Option.some.inj (hother.spec.symm.trans h.spec),
    Option.some.inj (hother.slot.symm.trans h.slot)⟩

theorem executable?_eq_none_iff : resolver.executable? pointer = none ↔
    resolver.memory.space.isExecutable (resolver.target pointer) = false := by
  simp [executable?]

/-- A row whose pointer is not executable stands before all rows that give an address to its
instantiation exactly if none of the rows in front of it gives one. -/
theorem forall_lt_iff_not_settled {row : Nat} (hentry : entries[row]? = some entry)
    (hrefers : RefersTo resolver.graph pointers entry instantiation pointer)
    (hcode : resolver.executable? pointer = none) :
    (∀ giving address, resolver.GivesAt pointers entries giving instantiation address →
        row < giving) ↔
      ¬resolver.Settled pointers [] (entries.take row) instantiation := by
  have hgives : ∀ {place : Nat} {other : GenericMethodEntry}, entries[place]? = some other →
      (resolver.Gives pointers other instantiation ↔
        ∃ address, resolver.GivesAt pointers entries place instantiation address) := by
    intro place other hother
    simp only [givesAt_iff, hother, Option.bind_some, gives_iff, Option.isSome_iff_exists]
  constructor
  · rintro hafter (hfound | ⟨earlier, hmem, h⟩)
    · cases hfound
    · obtain ⟨place, hplace⟩ := List.mem_iff_getElem?.mp hmem
      rw [List.getElem?_take, Option.ite_none_right_eq_some] at hplace
      obtain ⟨hlt, hplace⟩ := hplace
      obtain ⟨address, haddress⟩ := (hgives hplace).mp h
      exact absurd (hafter place address haddress) (Nat.lt_asymm hlt)
  · intro hsettled giving address h
    by_contra hle
    have hentry' := hentry
    obtain ⟨other, given, hother, hrefers', hnull, rfl, hexecutable⟩ := h
    rcases Nat.lt_or_eq_of_le (Nat.le_of_not_lt hle) with hlt | rfl
    · have hmem : other ∈ entries.take row := by
        rw [List.mem_iff_getElem?]
        exact ⟨giving, by rw [List.getElem?_take, if_pos hlt, hother]⟩
      exact hsettled (Or.inr ⟨other, hmem, (hgives hother).mpr
        ⟨_, other, given, hother, hrefers', hnull, rfl, hexecutable⟩⟩)
    · obtain rfl := Option.some.inj (hother.symm.trans hentry)
      obtain ⟨-, rfl⟩ := hrefers.unique hrefers'
      rw [executable?_eq_none_iff, hexecutable] at hcode
      cases hcode

theorem issueAt?_eq_some_iff_hasIssue {row : Nat} :
    resolver.issueAt? pointers [] entries 0 row = some fault ↔
      resolver.HasIssue pointers entries row fault := by
  rw [issueAt?_eq_some_iff, Nat.zero_add]
  constructor
  · rintro ⟨entry, hentry, h⟩
    unfold RowFails at h
    split at h
    · next hparts =>
        subst h
        refine .unknown hentry fun instantiation pointer hrefers => ?_
        rw [genericParts?_eq_some_iff.mpr hrefers] at hparts
        cases hparts
    · next instantiation pointer hparts =>
        obtain ⟨hnull, hfirst, hcode, rfl⟩ := h
        have hrefers := genericParts?_eq_some_iff.mp hparts
        exact .notExecutable hentry hrefers hnull (executable?_eq_none_iff.mp hcode)
          ((forall_lt_iff_not_settled hentry hrefers hcode).mpr hfirst)
  · rintro (⟨hentry, hnone⟩ | ⟨hentry, hrefers, hnull, hcode, hfirst⟩)
    · refine ⟨_, hentry, ?_⟩
      have hparts : genericParts? resolver.graph pointers _ = none :=
        Option.eq_none_iff_forall_ne_some.mpr fun parts hparts =>
          hnone _ _ (genericParts?_eq_some_iff.mp hparts)
      rw [RowFails, hparts]
    · refine ⟨_, hentry, ?_⟩
      have hcode := executable?_eq_none_iff.mpr hcode
      rw [RowFails, genericParts?_eq_some_iff.mpr hrefers]
      exact ⟨hnull, (forall_lt_iff_not_settled hentry hrefers hcode).mp hfirst, hcode, rfl⟩

section Issues

theorem table_of_mem_generics (h : fault ∈ resolver.generics.2) :
    fault.table = some "generic_method_table" := by
  obtain ⟨code, metadata, -, -, h⟩ := mem_generics_iff.mp h
  cases h <;> rfl

theorem table_ne_of_entryFailure (h : EntryFailure resolver fault) :
    fault.table ≠ some "generic_method_table" := by
  cases h
  simp [notExecutable]

theorem table_ne_of_moduleFailure {index : Nat} {module : Module}
    (h : ModuleFailure resolver index module fault) :
    fault.table ≠ some "generic_method_table" := by
  cases h <;> simp [noModule, notAligned, notExecutable]

theorem table_ne_of_offsetsFailure (h : OffsetsFailure resolver pointers fault) :
    fault.table ≠ some "generic_method_table" := by
  cases h
  simp [unreadableOffsets]

theorem exists_issues_resolve : ∃ added,
    resolver.resolve.report.issues = resolver.registrations.issues ++ added ∧
      added.filter (fun issue => issue.table == some "generic_method_table") =
        resolver.generics.2 := by
  have hother : ∀ {issues : List Fault},
      (∀ issue ∈ issues, issue.table ≠ some "generic_method_table") →
        issues.filter (fun issue => issue.table == some "generic_method_table") = [] := by
    intro issues h
    rw [List.filter_eq_nil_iff]
    intro issue hissue
    simpa using h issue hissue
  have hown : resolver.generics.2.filter
      (fun issue => issue.table == some "generic_method_table") = resolver.generics.2 := by
    rw [List.filter_eq_self]
    intro issue hissue
    simpa using table_of_mem_generics hissue
  refine ⟨_, by simp only [resolve, List.append_assoc]; rfl, ?_⟩
  simp only [List.filter_append]
  rw [hown, hother, List.nil_append, hother, List.nil_append, hother, List.append_nil]
  · intro issue hissue
    obtain ⟨result, hresult, herror⟩ := List.mem_filterMap.mp hissue
    cases result with
    | ok offsets => cases herror
    | error fault =>
        obtain rfl := Option.some.inj herror
        obtain ⟨metadata, -, h⟩ := mem_offsetsIssues_iff.mp ⟨_, hresult, rfl⟩
        exact table_ne_of_offsetsFailure h
  · intro issue hissue
    obtain ⟨index, module, -, -, h⟩ := mem_allModuleIssues_iff.mp hissue
    exact table_ne_of_moduleFailure h
  · intro issue hissue
    exact table_ne_of_entryFailure (mem_entryIssues_iff.mp hissue)

theorem exists_rows_of_generics (hcode : resolver.registrations.code = some code)
    (hmetadata : resolver.registrations.metadata = some metadata) :
    ∃ rows : List Nat, rows.Pairwise (· < ·) ∧
      (∀ row, row ∈ rows ↔ ∃ fault, resolver.HasIssue code.genericMethodPointers
        metadata.genericMethodTable row fault) ∧
      List.Forall₂ (resolver.HasIssue code.genericMethodPointers metadata.genericMethodTable)
        rows resolver.generics.2 := by
  let issueAt? := resolver.issueAt? code.genericMethodPointers [] metadata.genericMethodTable 0
  have hissues : resolver.generics.2 =
      (List.range metadata.genericMethodTable.length).filterMap issueAt? := by
    rw [generics, hcode, hmetadata]
    exact issues_genericFrom 0
  refine ⟨(List.range metadata.genericMethodTable.length).filter fun row => (issueAt? row).isSome,
    List.pairwise_lt_range.filter _, fun row => ?_, ?_⟩
  · simp only [List.mem_filter, List.mem_range, Option.isSome_iff_exists, issueAt?,
      issueAt?_eq_some_iff_hasIssue]
    refine and_iff_right_of_imp ?_
    rintro ⟨fault, ⟨hentry, -⟩ | ⟨hentry, -⟩⟩
    · exact (List.getElem?_eq_some_iff.mp hentry).1
    · exact (List.getElem?_eq_some_iff.mp hentry).1
  · rw [hissues]
    exact (forall₂_filterMap issueAt? _).imp fun _ _ => issueAt?_eq_some_iff_hasIssue.mp

end Issues

/-- An instantiation has the address of the first row that gives one to it, if there is one. The
rows that have an issue are those that refer to nothing, and those with a pointer that is not
executable in front of all rows that give an address to the instantiation; each has one issue, in
the order of the rows. -/
theorem generics_of_rows (hcode : resolver.registrations.code = some code)
    (hmetadata : resolver.registrations.metadata = some metadata) :
    let pointers := code.genericMethodPointers
    let entries := metadata.genericMethodTable
    (∀ instantiation < resolver.graph.instantiations.size,
      (∀ address, resolver.resolve.genericAddress? instantiation = some address ↔
        FirstGives (fun row => resolver.GivesAt pointers entries row instantiation) address) ∧
      (resolver.resolve.genericAddress? instantiation = none ↔
        ∀ row address, ¬resolver.GivesAt pointers entries row instantiation address)) ∧
    ∃ added rows, resolver.resolve.report.issues = resolver.registrations.issues ++ added ∧
      rows.Pairwise (· < ·) ∧
      (∀ row, row ∈ rows ↔ ∃ fault, resolver.HasIssue pointers entries row fault) ∧
      List.Forall₂ (resolver.HasIssue pointers entries) rows
        (added.filter fun issue => issue.table == some "generic_method_table") := by
  intro pointers entries
  refine ⟨fun instantiation hinstantiation => ?_, ?_⟩
  · rw [genericAddress?_eq_findSome? hcode hmetadata hinstantiation]
    exact ⟨fun _ => findSome?_eq_some_iff_firstGivesAt, findSome?_eq_none_iff_forall_not_givesAt⟩
  · obtain ⟨added, hadded, hown⟩ := @exists_issues_resolve resolver
    obtain ⟨rows, hordered, hrows, hissues⟩ := exists_rows_of_generics hcode hmetadata
    exact ⟨added, rows, hadded, hordered, hrows, hown ▸ hissues⟩

def mixedPointers : Array Nat := #[0x3001, 0, 0x1011, 0x1021]

/-- Rows of two instantiations, the first of which has two method specs. In front of the row that
gives it an address is a pointer that is not executable, and behind that row are the same pointer
and one more address. The second instantiation has a null pointer only. -/
def mixedRows : List GenericMethodEntry :=
  [⟨-1, 0, []⟩, ⟨0, 0, []⟩, ⟨2, 4, []⟩, ⟨2, 1, []⟩, ⟨1, 2, []⟩, ⟨0, 0, []⟩, ⟨0, 3, []⟩]

def mixedResolver : Resolver where
  machine := .arm
  memory := smallResolver.memory
  graph :=
    { smallResolver.graph with
      instantiations := #[⟨0, true, [], []⟩, ⟨1, true, [], []⟩], methodSpecs := #[0, 0, 1] }
  registrations :=
    { code := some ⟨0, [], [], mixedPointers⟩, metadata := some ⟨0, [], mixedRows, #[]⟩
      issues := [] }

theorem issues_mixedResolver : mixedResolver.resolve.report.issues =
    [noModule "m" 0, unknownGeneric 0 ⟨-1, 0, []⟩, notExecutable 0x3000 "generic_method_table" 1,
      unknownGeneric 2 ⟨2, 4, []⟩] := by
  cbv

theorem genericAddress?_mixedResolver :
    mixedResolver.resolve.genericAddress? 0 = some 0x1010 ∧
      mixedResolver.resolve.genericAddress? 1 = none ∧
        ∃ rows : List Nat, rows.Pairwise (· < ·) ∧
          List.Forall₂ (mixedResolver.HasIssue mixedPointers mixedRows) rows
            [unknownGeneric 0 ⟨-1, 0, []⟩, notExecutable 0x3000 "generic_method_table" 1,
              unknownGeneric 2 ⟨2, 4, []⟩] := by
  obtain ⟨haddresses, added, rows, hadded, hordered, -, hissues⟩ :=
    @generics_of_rows mixedResolver _ _ rfl rfl
  refine ⟨?_, ?_, rows, hordered, ?_⟩
  · exact ((haddresses 0 (by decide)).1 _).mpr (findSome?_eq_some_iff_firstGivesAt.mp (by cbv))
  · exact (haddresses 1 (by decide)).2.mpr
      (findSome?_eq_none_iff_forall_not_givesAt.mp (by cbv))
  · obtain rfl : _ = added := issues_mixedResolver.symm.trans hadded
    exact hissues

end Resolver

end TypeAtlas
