import Mathlib
import TypeAtlas.Proofs.Resolution.Rank
import TypeAtlas.Resolution.Resolve

namespace TypeAtlas.Resolver

variable {resolver : Resolver} {module : Module} {method : Nat}

/-- The address that a pointer to code stands for, if it is executable. -/
def executable? (resolver : Resolver) (pointer : Nat) : Option Int :=
  if resolver.memory.space.isExecutable (resolver.target pointer) then
    some (resolver.target pointer)
  else none

/-- The address that the method address table gives to a method. The entries 0 and 2^64 - 1 stand
for no address. -/
def ownAddress? (resolver : Resolver) (method : Nat) : Option Int := do
  let entry ← resolver.graph.methodAddresses[method]?
  if entry = 0 ∨ entry = 2 ^ 64 - 1 then none else resolver.executable? entry

/-- The address that the pointers of a module give to its method with a rank. There have to be as
many pointers as methods, and a null pointer stands for no address. -/
def rankedAddress? (resolver : Resolver) (module : Module) (rank : Nat) : Option Int := do
  let code ← resolver.registrations.code
  let found ← code.module? module.name
  if found.methodPointers.length = (resolver.graph.listedMethods module).length then do
    let pointer ← found.methodPointers[rank]?
    if pointer = 0 then none else resolver.executable? pointer
  else none

theorem executable?_eq_some_iff {pointer : Nat} {address : Int} :
    resolver.executable? pointer = some address ↔
      resolver.memory.space.isExecutable address = true ∧ resolver.target pointer = address := by
  rw [executable?, Option.ite_none_right_eq_some, Option.some.injEq]
  constructor
  · rintro ⟨h, rfl⟩
    exact ⟨h, rfl⟩
  · rintro ⟨h, rfl⟩
    exact ⟨h, rfl⟩

theorem toOption_follow (pointer : Nat) (table : String) (index : Nat) :
    (resolver.follow pointer table index).toOption = resolver.executable? pointer := by
  simp only [follow, executable?]
  split <;> rfl

theorem isSentinel_iff {entry : Nat} :
    isSentinel entry = true ↔ entry = 0 ∨ entry = 2 ^ 64 - 1 := by
  simp [isSentinel]

theorem address?_direct (method : Nat) :
    (resolver.direct method).address? = resolver.ownAddress? method := by
  unfold direct ownAddress?
  cases hentry : resolver.graph.methodAddresses[method]? with
  | none => rfl
  | some entry =>
      dsimp only
      rw [Option.bind_eq_bind, Option.bind_some]
      by_cases hsentinel : isSentinel entry = true
      · rw [if_pos hsentinel, if_pos (isSentinel_iff.mp hsentinel)]
        rfl
      · rw [if_neg hsentinel, if_neg (mt isSentinel_iff.mpr hsentinel)]
        exact toOption_follow entry "method_addresses" method

theorem getElem?_directOutcomes (h : method < resolver.graph.methods.size) :
    resolver.directOutcomes[method]? = some (resolver.direct method) := by
  simp [directOutcomes, h]

theorem isDirect_directOutcomes (h : method < resolver.graph.methods.size) :
    isDirect resolver.directOutcomes method = (resolver.ownAddress? method).isSome := by
  rw [isDirect, getElem?_directOutcomes h, ← address?_direct]
  rfl

section Table

theorem tableOf_append_singleton (size : Nat) (values : List (Nat × Int)) (row : Nat)
    (value : Int) :
    tableOf size (values ++ [(row, value)]) =
      (tableOf size values).setIfInBounds row (some value) := by
  simp [tableOf]

theorem size_tableOf (size : Nat) (values : List (Nat × Int)) :
    (tableOf size values).size = size := by
  induction values using List.reverseRecOn with
  | nil => simp [tableOf]
  | append_singleton values value ih =>
      rw [tableOf_append_singleton, Array.size_setIfInBounds, ih]

theorem getElem?_tableOf {size row : Nat} (values : List (Nat × Int)) (h : row < size) :
    (tableOf size values)[row]? = some (values.reverse.lookup row) := by
  induction values using List.reverseRecOn with
  | nil => simp [tableOf, h]
  | append_singleton values value ih =>
      rw [tableOf_append_singleton, List.reverse_append, List.reverse_singleton,
        List.singleton_append, List.lookup_cons]
      rw [Array.getElem?_setIfInBounds, size_tableOf]
      by_cases hrow : value.1 = row
      · subst hrow
        simp [h]
      · have hne : (row == value.1) = false := by simpa using Ne.symm hrow
        simp [hrow, hne, ih]

theorem mem_of_lookup_reverse {values : List (Nat × Int)} {row : Nat} {value : Int}
    (h : values.reverse.lookup row = some value) : (row, value) ∈ values := by
  obtain ⟨front, back, hvalues, -⟩ := List.lookup_eq_some_iff.mp h
  rw [← List.mem_reverse, hvalues]
  simp

theorem lookup_eq_of_mem_iff {values : List (Nat × Int)} {row : Nat} {found : Option Int}
    (h : ∀ value, (row, value) ∈ values ↔ found = some value) :
    values.reverse.lookup row = found := by
  cases hlookup : values.reverse.lookup row with
  | none =>
      rw [List.lookup_eq_none_iff] at hlookup
      cases found with
      | none => rfl
      | some value =>
          have hne := hlookup (row, value) (List.mem_reverse.mpr ((h value).mpr rfl))
          simp at hne
  | some value => exact ((h value).mp (mem_of_lookup_reverse hlookup)).symm

end Table

section Modules

theorem address?_aligned {outcomes : Array Outcome} (pointer : Nat)
    (hdirect : isDirect outcomes method = false) :
    (resolver.aligned outcomes method pointer).address? =
      if pointer = 0 then none else resolver.executable? pointer := by
  unfold aligned
  rw [hdirect, Bool.false_or]
  by_cases hpointer : pointer = 0
  · simp [hpointer, Outcome.address?]
  · simp [hpointer, Outcome.address?, toOption_follow]

theorem mem_moduleAddresses_ok {pairs : List (Nat × Nat)} {outcome : Nat → Nat → Outcome}
    {address : Int} :
    (method, address) ∈ moduleAddresses
        (.ok (pairs.map fun (method, pointer) => (method, outcome method pointer))) ↔
      ∃ pointer, (method, pointer) ∈ pairs ∧ (outcome method pointer).address? = some address := by
  simp only [moduleAddresses, List.filterMap_map, List.mem_filterMap, Function.comp_apply,
    Option.map_eq_some_iff, Prod.mk.injEq, Prod.exists]
  constructor
  · rintro ⟨other, pointer, hmem, found, hfound, rfl, rfl⟩
    exact ⟨pointer, hmem, hfound⟩
  · rintro ⟨pointer, hmem, haddress⟩
    exact ⟨method, pointer, hmem, address, haddress, rfl, rfl⟩

theorem mem_zip_iff {α β : Type} {items : List α} {values : List β} {item : α} {value : β} :
    (item, value) ∈ items.zip values ↔
      ∃ position : Nat, items[position]? = some item ∧ values[position]? = some value := by
  simp only [List.mem_iff_getElem?, List.getElem?_zip_eq_some]

theorem exists_aligned_of_mem {outcomes : Array Outcome} {index : Nat} {address : Int}
    (h : (method, address) ∈ moduleAddresses (resolver.moduleOutcomes outcomes index module)) :
    method ∈ resolver.graph.listedMethods module ∧
      ∃ pointer, (resolver.aligned outcomes method pointer).address? = some address := by
  unfold moduleOutcomes at h
  dsimp only at h
  split at h
  · cases h
  · split at h
    · cases h
    · split at h
      · obtain ⟨pointer, hmem, haddress⟩ := mem_moduleAddresses_ok.mp h
        obtain ⟨position, hmethod, -⟩ := mem_zip_iff.mp hmem
        exact ⟨TypeGraph.mem_methodsOf.mp (List.mem_of_getElem? hmethod), pointer, haddress⟩
      · cases h

theorem mem_moduleAddresses_iff {outcomes : Array Outcome} {index : Nat} {address : Int}
    (honce : (resolver.graph.listedMethods module).count method = 1)
    (hdirect : isDirect outcomes method = false) :
    (method, address) ∈ moduleAddresses (resolver.moduleOutcomes outcomes index module) ↔
      resolver.rankedAddress? module (resolver.graph.rankOf module method) = some address := by
  have hlisted : method ∈ resolver.graph.methodsOf module :=
    TypeGraph.mem_methodsOf.mpr (List.count_pos_iff.mp (by omega))
  have hall : ¬(resolver.graph.methodsOf module).all (isDirect outcomes) = true := by
    rw [List.all_eq_true]
    intro h
    rw [h method hlisted] at hdirect
    cases hdirect
  unfold moduleOutcomes rankedAddress?
  dsimp only
  rw [if_neg hall]
  cases hcode : resolver.registrations.code with
  | none => simp [moduleAddresses]
  | some code =>
      cases hfound : code.module? module.name with
      | none => simp [hfound, moduleAddresses]
      | some found =>
          simp only [Option.bind_some, hfound, Option.bind_eq_bind, ← TypeGraph.length_methodsOf]
          split
          · rw [mem_moduleAddresses_ok]
            simp only [mem_zip_iff, TypeGraph.getElem?_methodsOf_iff honce, exists_eq_left,
              address?_aligned _ hdirect, Option.bind_eq_some_iff]
          · simp [moduleAddresses]

end Modules

theorem mem_allModuleAddresses_iff {outcomes : Array Outcome} {index : Nat} {address : Int}
    (hmodule : resolver.graph.modules[index]? = some module)
    (hother : ∀ (other : Nat) (otherModule : Module),
      resolver.graph.modules[other]? = some otherModule → other ≠ index →
        method ∉ resolver.graph.listedMethods otherModule) :
    (method, address) ∈ (resolver.allModuleOutcomes outcomes).flatMap moduleAddresses ↔
      (method, address) ∈ moduleAddresses (resolver.moduleOutcomes outcomes index module) := by
  simp only [allModuleOutcomes, List.flatMap_map, List.mem_flatMap]
  constructor
  · rintro ⟨⟨otherModule, other⟩, hmem, haddress⟩
    rw [List.mem_zipIdx_iff_getElem?, Array.getElem?_toList] at hmem
    by_cases heq : other = index
    · subst heq
      obtain rfl := Option.some.inj (hmem.symm.trans hmodule)
      exact haddress
    · exact absurd (exists_aligned_of_mem haddress).1 (hother other otherModule hmem heq)
  · intro haddress
    refine ⟨(module, index), ?_, haddress⟩
    rw [List.mem_zipIdx_iff_getElem?, Array.getElem?_toList]
    exact hmodule

theorem direct_resolve (hmethod : method < resolver.graph.methods.size) :
    (resolver.resolve.direct[method]?).join = resolver.ownAddress? method := by
  change ((resolver.directOutcomes.map Outcome.address?)[method]?).join = _
  rw [Array.getElem?_map, getElem?_directOutcomes hmethod]
  exact address?_direct method

/-- The addresses that the pointers of all modules give to methods without entries of their own. -/
def moduleGiven (resolver : Resolver) : List (Nat × Int) :=
  (resolver.allModuleOutcomes resolver.directOutcomes).flatMap moduleAddresses

/-- A method takes its own address, or else the last one that a module gives to it. -/
theorem methodAddress?_eq_or (hmethod : method < resolver.graph.methods.size) :
    resolver.resolve.methodAddress? method =
      (resolver.ownAddress? method).or (resolver.moduleGiven.reverse.lookup method) := by
  rw [Resolution.methodAddress?, direct_resolve hmethod]
  cases resolver.ownAddress? method with
  | some address => rfl
  | none =>
      change ((tableOf resolver.graph.methods.size resolver.moduleGiven)[method]?).join = _
      rw [getElem?_tableOf _ hmethod, Option.none_or, Option.join_some]

theorem methodAddress?_eq_none_of_size_le (hmethod : resolver.graph.methods.size ≤ method) :
    resolver.resolve.methodAddress? method = none := by
  have hdirect : resolver.resolve.direct.size ≤ method := by
    change (resolver.directOutcomes.map Outcome.address?).size ≤ method
    simpa [directOutcomes] using hmethod
  have hheuristic : resolver.resolve.heuristic.size ≤ method := by
    change (tableOf resolver.graph.methods.size resolver.moduleGiven).size ≤ method
    rw [size_tableOf]
    exact hmethod
  rw [Resolution.methodAddress?, Array.getElem?_eq_none hdirect, Array.getElem?_eq_none hheuristic]
  rfl

/-- The address of a method is the one that its own entry gives, or else the one that stands at its
rank among the pointers of its module. If the rows of the module are the numbers from one on, the
rank is the row less one. -/
theorem methodAddress?_resolve {index : Nat} (hmethod : method < resolver.graph.methods.size)
    (hmodule : resolver.graph.modules[index]? = some module)
    (honce : (resolver.graph.listedMethods module).count method = 1)
    (hother : ∀ (other : Nat) (otherModule : Module),
      resolver.graph.modules[other]? = some otherModule → other ≠ index →
        method ∉ resolver.graph.listedMethods otherModule) :
    resolver.resolve.methodAddress? method =
        (resolver.ownAddress? method).or
          (resolver.rankedAddress? module (resolver.graph.rankOf module method)) ∧
      (((resolver.graph.listedMethods module).map resolver.graph.rowOf).Perm
          (List.range' 1 (resolver.graph.listedMethods module).length) →
        resolver.graph.rankOf module method = resolver.graph.rowOf method - 1) := by
  constructor
  · have hown : (resolver.resolve.direct[method]?).join = resolver.ownAddress? method := by
      change ((resolver.directOutcomes.map Outcome.address?)[method]?).join = _
      rw [Array.getElem?_map, getElem?_directOutcomes hmethod]
      exact address?_direct method
    rw [Resolution.methodAddress?, hown]
    cases haddress : resolver.ownAddress? method with
    | some address => rfl
    | none =>
        have hdirect : isDirect resolver.directOutcomes method = false := by
          rw [isDirect_directOutcomes hmethod, haddress]
          rfl
        change ((tableOf resolver.graph.methods.size _)[method]?).join = _
        rw [getElem?_tableOf _ hmethod, Option.none_or]
        refine lookup_eq_of_mem_iff fun address => ?_
        rw [mem_allModuleAddresses_iff hmodule hother, mem_moduleAddresses_iff honce hdirect]
  · intro hrows
    exact sortedRank_of_perm (List.count_pos_iff.mp (by omega)) hrows

/-- A module with one type, which lists a method of row 2 in front of one of row 1. -/
def smallModule : Module := ⟨"m", 0, 1, 0⟩

/-- A resolver for a 32-bit ARM machine. The method of row 1 has an entry of its own, that of row 2
has none. -/
def smallResolver : Resolver where
  machine := .arm
  memory :=
    { data := ByteArray.empty, width := .bits32
      space := ⟨[⟨"text", 0, 0, 0x1000, 0x100, ⟨true, false, true⟩⟩], []⟩ }
  graph :=
    { release := .v29_0, modules := #[smallModule]
      types := #[⟨"t", "", some 0, none, none, [], [0, 1], [], [], [], [], 0, 0, 0⟩]
      methods := #[⟨"a", 0, 0, [], [], 0, 0, 0, 2⟩, ⟨"b", 0, 0, [], [], 0, 0, 0, 1⟩]
      fields := #[], properties := #[], genericParameters := #[], references := #[]
      instantiations := #[], methodSpecs := #[], literals := #[]
      methodAddresses := #[0xFFFFFFFFFFFFFFFF, 0x1020] }
  registrations :=
    { code := some ⟨0, [], [⟨0, "m", [0x1008, 0x1011]⟩], #[]⟩, metadata := none, issues := [] }

theorem methodAddress?_smallResolver :
    smallResolver.resolve.methodAddress? 0 = some 0x1010 ∧
      smallResolver.graph.rankOf smallModule 0 = 1 := by
  have hother : ∀ (other : Nat) (otherModule : Module),
      smallResolver.graph.modules[other]? = some otherModule → other ≠ 0 →
        0 ∉ smallResolver.graph.listedMethods otherModule := by
    intro other otherModule hmodule hne
    obtain ⟨hlt, -⟩ := Array.getElem?_eq_some_iff.mp hmodule
    exact absurd (Nat.lt_one_iff.mp hlt) hne
  obtain ⟨haddress, hrank⟩ := @methodAddress?_resolve smallResolver smallModule 0 0 (by decide) rfl
    (by decide) hother
  have hrows : ((smallResolver.graph.listedMethods smallModule).map smallResolver.graph.rowOf).Perm
      (List.range' 1 (smallResolver.graph.listedMethods smallModule).length) := by
    decide
  refine ⟨?_, hrank hrows⟩
  rw [haddress, hrank hrows]
  decide

end TypeAtlas.Resolver
