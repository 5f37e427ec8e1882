import TypeAtlas.Proofs.Resolution.Issues

namespace TypeAtlas

/-- Whether an issue of a kind is about a row of a table. -/
def Report.Tells (report : Report) (kind : Fault.Kind) (table : String) (row : Nat) : Prop :=
  ∃ issue ∈ report.issues, issue.kind = kind ∧ issue.table = some table ∧
    issue.index = some (row : Int)

theorem Report.not_tells_of_isOk {report : Report} (hok : report.isOk = true) (kind : Fault.Kind)
    (table : String) (row : Nat) : ¬report.Tells kind table row := by
  rintro ⟨issue, hissue, -⟩
  rw [Report.isOk, List.isEmpty_iff] at hok
  rw [hok] at hissue
  cases hissue

namespace Resolver

variable {resolver : Resolver} {module : Module} {method : Nat}

/-- The method address table has no entry for a method, or one that stands for no address. -/
def HasNullEntry (resolver : Resolver) (method : Nat) : Prop :=
  ∀ entry, resolver.graph.methodAddresses[method]? = some entry → entry = 0 ∨ entry = 2 ^ 64 - 1

/-- A module of the code registration has a pointer for each method of a module, and each of those
that are aligned with one of the methods has a property. -/
def AlignedPointers (resolver : Resolver) (module : Module) (method : Nat) (property : Nat → Prop) :
    Prop :=
  ∃ found, resolver.pointersOf? module = some found ∧
    found.methodPointers.length = (resolver.graph.methodsOf module).length ∧
      ∀ position : Nat, (resolver.graph.methodsOf module)[position]? = some method →
        ∃ pointer, found.methodPointers[position]? = some pointer ∧ property pointer

theorem AlignedPointers.imp {property other : Nat → Prop}
    (h : resolver.AlignedPointers module method property)
    (himp : ∀ pointer, property pointer → other pointer) :
    resolver.AlignedPointers module method other := by
  obtain ⟨found, hfound, hlength, haligned⟩ := h
  refine ⟨found, hfound, hlength, fun position hposition => ?_⟩
  obtain ⟨pointer, hpointer, hproperty⟩ := haligned position hposition
  exact ⟨pointer, hpointer, himp pointer hproperty⟩

theorem mem_moduleAddresses_iff_exists {outcomes : Array Outcome} {address : Int} (index : Nat)
    (hdirect : isDirect outcomes method = false) :
    (method, address) ∈ moduleAddresses (resolver.moduleOutcomes outcomes index module) ↔
      ∃ (found : CodeGenModule) (position pointer : Nat),
        resolver.pointersOf? module = some found ∧
          found.methodPointers.length = (resolver.graph.methodsOf module).length ∧
            (resolver.graph.methodsOf module)[position]? = some method ∧
              found.methodPointers[position]? = some pointer ∧ pointer ≠ 0 ∧
                resolver.executable? pointer = some address := by
  have hgiven : ∀ pointer : Nat,
      (resolver.aligned outcomes method pointer).address? = some address ↔
        pointer ≠ 0 ∧ resolver.executable? pointer = some address := by
    intro pointer
    rw [address?_aligned pointer hdirect]
    by_cases hnull : pointer = 0 <;> simp [hnull]
  unfold moduleOutcomes pointersOf?
  dsimp only
  split
  · next hall =>
      -- All methods of the module have entries of their own, so this method is none of them.
      simp only [moduleAddresses, List.filterMap_nil, List.not_mem_nil, false_iff, not_exists]
      rintro found position pointer ⟨-, -, hposition, -⟩
      have hother := List.all_eq_true.mp hall method (List.mem_of_getElem? hposition)
      rw [hdirect] at hother
      cases hother
  · cases resolver.registrations.code.bind fun code => code.module? module.name with
    | none => simp [moduleAddresses]
    | some found =>
        dsimp only
        split
        · next hlength =>
            rw [mem_moduleAddresses_ok]
            simp only [mem_zip_iff, hgiven, Option.some.injEq]
            constructor
            · rintro ⟨pointer, ⟨position, hposition, hpointer⟩, hnull, haddress⟩
              exact ⟨found, position, pointer, rfl, hlength, hposition, hpointer, hnull, haddress⟩
            · rintro ⟨other, position, pointer, rfl, -, hposition, hpointer, hnull, haddress⟩
              exact ⟨pointer, ⟨position, hposition, hpointer⟩, hnull, haddress⟩
        · next hlength =>
            simp only [moduleAddresses, List.not_mem_nil, false_iff, not_exists, Option.some.injEq]
            rintro other position pointer ⟨rfl, heq, -⟩
            exact hlength heq

/-- Whatever is aligned with a method in a module gives it no address. -/
def GivesNone (resolver : Resolver) (module : Module) (method : Nat) : Prop :=
  ∀ (found : CodeGenModule) (position pointer : Nat), resolver.pointersOf? module = some found →
    found.methodPointers.length = (resolver.graph.methodsOf module).length →
      (resolver.graph.methodsOf module)[position]? = some method →
        found.methodPointers[position]? = some pointer → pointer ≠ 0 →
          resolver.executable? pointer = none

theorem methodAddress?_eq_none_iff (hmethod : method < resolver.graph.methods.size) :
    resolver.resolve.methodAddress? method = none ↔
      resolver.ownAddress? method = none ∧
        ∀ (index : Nat) (module : Module), resolver.graph.modules[index]? = some module →
          resolver.GivesNone module method := by
  rw [Resolution.methodAddress?, direct_resolve hmethod]
  cases haddress : resolver.ownAddress? method with
  | some address => simp
  | none =>
      have hdirect : isDirect resolver.directOutcomes method = false := by
        rw [isDirect_directOutcomes hmethod, haddress]
        rfl
      change ((tableOf resolver.graph.methods.size _)[method]?).join = none ↔ _
      rw [getElem?_tableOf _ hmethod, Option.join_some, List.lookup_eq_none_iff]
      simp only [List.mem_reverse, Prod.forall, true_and, allModuleOutcomes, List.flatMap_map,
        List.mem_flatMap, Prod.exists, List.mem_zipIdx_iff_getElem?, Array.getElem?_toList]
      constructor
      · intro h index module hmodule found position pointer hfound hlength hposition hpointer hnull
        cases hcode : resolver.executable? pointer with
        | none => rfl
        | some address =>
            have hmem := (mem_moduleAddresses_iff_exists index hdirect).mpr
              ⟨found, position, pointer, hfound, hlength, hposition, hpointer, hnull, hcode⟩
            have hne := h method address ⟨module, index, hmodule, hmem⟩
            simp at hne
      · rintro h other address ⟨module, index, hmodule, hmem⟩
        by_cases heq : method = other
        · subst heq
          obtain ⟨found, position, pointer, hfound, hlength, hposition, hpointer, hnull, hcode⟩ :=
            (mem_moduleAddresses_iff_exists index hdirect).mp hmem
          rw [h index module hmodule found position pointer hfound hlength hposition hpointer
            hnull] at hcode
          cases hcode
        · simpa using heq

theorem tells_of_failure {fault : Fault} {row : Nat} (h : resolver.Failure fault)
    (hindex : fault.index = some (row : Int)) {table : String} (htable : fault.table = some table) :
    resolver.resolve.report.Tells fault.kind table row :=
  ⟨fault, mem_issues_resolve_iff.mpr (Or.inr h), rfl, htable, hindex⟩

theorem hasNullEntry_or_tells (hmethod : method < resolver.graph.methods.size)
    (hown : resolver.ownAddress? method = none) :
    resolver.HasNullEntry method ∨
      resolver.resolve.report.Tells .addressOutOfBounds "method_addresses" method := by
  cases hentry : resolver.graph.methodAddresses[method]? with
  | none =>
      refine Or.inl fun entry h => ?_
      cases hentry.symm.trans h
  | some entry =>
      by_cases hvalue : entry = 0 ∨ entry = 2 ^ 64 - 1
      · refine Or.inl fun other h => ?_
        obtain rfl := Option.some.inj (hentry.symm.trans h)
        exact hvalue
      · have hcode : resolver.executable? entry = none := by
          rw [ownAddress?, hentry, Option.bind_eq_bind, Option.bind_some, if_neg hvalue] at hown
          exact hown
        exact Or.inr (tells_of_failure
          (.entry (.notExecutable hmethod hentry hvalue hcode)) rfl rfl)

/-- A module that gives no address to one of its methods has an issue itself, or each of the
pointers aligned with the method is null, or there is an issue with the method. -/
theorem tells_or_alignedPointers (index : Nat) (module : Module)
    (hmodule : resolver.graph.modules[index]? = some module)
    (hlisted : method ∈ resolver.graph.listedMethods module) (hlacks : resolver.LacksEntry method)
    (hnone : resolver.GivesNone module method) :
    resolver.resolve.report.Tells .registrationNotFound "code_gen_modules" index ∨
      resolver.resolve.report.Tells .addressResolutionAmbiguous "images" index ∨
        resolver.AlignedPointers module method fun pointer =>
          pointer = 0 ∨ resolver.resolve.report.Tells .addressOutOfBounds "methods" method := by
  have hfails : ∀ {fault : Fault}, ModuleFailure resolver index module fault →
      resolver.Failure fault := fun h => .module hmodule ⟨method, hlisted, hlacks⟩ h
  cases hfound : resolver.pointersOf? module with
  | none => exact Or.inl (tells_of_failure (hfails (.noModule hfound)) rfl rfl)
  | some found =>
      by_cases hlength : found.methodPointers.length = (resolver.graph.methodsOf module).length
      · refine Or.inr (Or.inr ⟨found, hfound, hlength, fun position hposition => ?_⟩)
        obtain ⟨hlt, -⟩ := List.getElem?_eq_some_iff.mp hposition
        rw [← hlength] at hlt
        have hpointer : found.methodPointers[position]? = some found.methodPointers[position] :=
          List.getElem?_eq_getElem hlt
        refine ⟨found.methodPointers[position], hpointer, ?_⟩
        by_cases hnull : found.methodPointers[position] = 0
        · exact Or.inl hnull
        · have hcode := hnone found position _ hfound hlength hposition hpointer hnull
          exact Or.inr (tells_of_failure
            (hfails (.notExecutable hfound hlength hposition hpointer hlacks hnull hcode)) rfl rfl)
      · exact Or.inr (Or.inl (tells_of_failure (hfails (.notAligned hfound hlength)) rfl rfl))

/-- No method is lost silently. The entry of a method without an address is null or has an issue,
and each module of the method has an issue, or each pointer aligned with the method is null or has
one. If there are no issues at all, the entry and all pointers aligned with the method are null. -/
theorem reported_of_methodAddress?_eq_none (hmethod : method < resolver.graph.methods.size)
    (hnone : resolver.resolve.methodAddress? method = none) :
    (resolver.HasNullEntry method ∨
        resolver.resolve.report.Tells .addressOutOfBounds "method_addresses" method) ∧
      (∀ (index : Nat) (module : Module), resolver.graph.modules[index]? = some module →
        method ∈ resolver.graph.listedMethods module →
          resolver.resolve.report.Tells .registrationNotFound "code_gen_modules" index ∨
            resolver.resolve.report.Tells .addressResolutionAmbiguous "images" index ∨
              resolver.AlignedPointers module method fun pointer =>
                pointer = 0 ∨
                  resolver.resolve.report.Tells .addressOutOfBounds "methods" method) ∧
      (resolver.resolve.report.isOk = true → resolver.HasNullEntry method ∧
        ∀ (index : Nat) (module : Module), resolver.graph.modules[index]? = some module →
          method ∈ resolver.graph.listedMethods module →
            resolver.AlignedPointers module method fun pointer => pointer = 0) := by
  obtain ⟨hown, hmodules⟩ := (methodAddress?_eq_none_iff hmethod).mp hnone
  have hentry := hasNullEntry_or_tells hmethod hown
  have hpointers := fun index module hmodule hlisted =>
    tells_or_alignedPointers index module hmodule hlisted (fun _ => hown)
      (hmodules index module hmodule)
  refine ⟨hentry, hpointers, fun hok => ?_⟩
  have hquiet := Report.not_tells_of_isOk hok
  refine ⟨hentry.resolve_right (hquiet _ _ _), fun index module hmodule hlisted => ?_⟩
  have haligned := ((hpointers index module hmodule hlisted).resolve_left
    (hquiet _ _ _)).resolve_left (hquiet _ _ _)
  exact haligned.imp fun pointer h => h.resolve_right (hquiet _ _ _)

/-- A resolver with three modules that list the same methods. The last method of the first module
has a null pointer, the second module has no pointers, and in the third module the method has a
pointer that is not executable. -/
def sharedResolver : Resolver where
  machine := .arm
  memory := smallResolver.memory
  graph :=
    { smallResolver.graph with
      modules :=
        #[smallModule, { smallModule with name := "n" }, { smallModule with name := "o" }] }
  registrations :=
    { code := some ⟨0, [], [⟨0, "m", [0x1008, 0]⟩, ⟨0, "o", [0x1008, 0x3001]⟩], #[]⟩
      metadata := none, issues := [] }

theorem issues_sharedResolver : sharedResolver.resolve.report.issues =
    [noModule "n" 1, notExecutable 0x3000 "methods" 0] := by
  cbv

theorem reported_sharedResolver :
    sharedResolver.resolve.methodAddress? 0 = none ∧ sharedResolver.HasNullEntry 0 ∧
      sharedResolver.resolve.report.Tells .registrationNotFound "code_gen_modules" 1 ∧
        sharedResolver.resolve.report.Tells .addressOutOfBounds "methods" 0 := by
  have hnone : sharedResolver.resolve.methodAddress? 0 = none := by cbv
  have hplace : (sharedResolver.graph.methodsOf { smallModule with name := "o" })[1]? = some 0 := by
    cbv
  have hquiet : ∀ (kind : Fault.Kind) (table : String) (row : Nat),
      sharedResolver.resolve.report.Tells kind table row →
        table = "code_gen_modules" ∧ row = 1 ∨ table = "methods" ∧ row = 0 := by
    rintro kind table row ⟨issue, hissue, -, htable, hrow⟩
    rw [issues_sharedResolver, List.mem_pair] at hissue
    rcases hissue with rfl | rfl
    · exact Or.inl ⟨(Option.some.inj htable).symm, (Int.ofNat.inj (Option.some.inj hrow)).symm⟩
    · exact Or.inr ⟨(Option.some.inj htable).symm, (Int.ofNat.inj (Option.some.inj hrow)).symm⟩
  obtain ⟨hentry, hmodules, -⟩ := reported_of_methodAddress?_eq_none (by decide) hnone
  refine ⟨hnone, hentry.resolve_right fun h => absurd (hquiet _ _ _ h) (by decide), ?_, ?_⟩
  · rcases hmodules 1 _ rfl (by decide) with hmissing | hambiguous | ⟨found, hfound, -⟩
    · exact hmissing
    · exact absurd (hquiet _ _ _ hambiguous) (by decide)
    · cases hfound
  · rcases hmodules 2 _ rfl (by decide) with hmissing | hambiguous | ⟨found, hfound, -, haligned⟩
    · exact absurd (hquiet _ _ _ hmissing) (by decide)
    · exact absurd (hquiet _ _ _ hambiguous) (by decide)
    · obtain rfl := Option.some.inj hfound
      obtain ⟨pointer, hpointer, hnull | htold⟩ := haligned 1 hplace
      · obtain rfl := Option.some.inj hpointer
        cases hnull
      · exact htold

end Resolver

end TypeAtlas
