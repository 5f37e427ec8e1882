import TypeAtlas.Proofs.Resolution.Issues

namespace TypeAtlas.Resolver

variable {resolver one other : Resolver} {method : Nat} {name : String}

section Given

/-- The values for a row, in order. -/
def valuesFor (row : Nat) (values : List (Nat × Int)) : List Int :=
  values.filterMap fun value => if value.1 = row then some value.2 else none

theorem lookup_reverse_eq_getLast? (row : Nat) (values : List (Nat × Int)) :
    values.reverse.lookup row = (valuesFor row values).getLast? := by
  induction values using List.reverseRecOn with
  | nil => rfl
  | append_singleton values value ih =>
      rw [List.reverse_append, List.reverse_singleton, List.singleton_append, List.lookup_cons]
      by_cases hrow : value.1 = row
      · have hlast : valuesFor row (values ++ [value]) = valuesFor row values ++ [value.2] := by
          simp [valuesFor, hrow]
        rw [hlast, List.getLast?_concat, hrow, beq_self_eq_true]
      · have hlast : valuesFor row (values ++ [value]) = valuesFor row values := by
          simp [valuesFor, hrow]
        have hne : (row == value.1) = false := by simpa using Ne.symm hrow
        rw [hlast, hne, ih]

/-- The addresses of the pointers of a module that are aligned with a method, whatever other methods
there are entries for. -/
def alignedAddresses (resolver : Resolver) (method : Nat) (module : Module) : List Int :=
  match resolver.pointersOf? module with
  | none => []
  | some found =>
      let methods := resolver.graph.methodsOf module
      if found.methodPointers.length = methods.length then
        (methods.zip found.methodPointers).filterMap fun (aligned, pointer) =>
          if aligned = method ∧ pointer ≠ 0 then resolver.executable? pointer else none
      else []

theorem alignedAddresses_eq_nil {module : Module}
    (h : method ∉ resolver.graph.methodsOf module) :
    resolver.alignedAddresses method module = [] := by
  unfold alignedAddresses
  split
  · rfl
  · next found _ =>
      dsimp only
      split
      · rw [List.filterMap_eq_nil_iff]
        rintro ⟨aligned, pointer⟩ hmem
        rw [if_neg]
        rintro ⟨rfl, -⟩
        exact h (List.of_mem_zip hmem).1
      · rfl

theorem valuesFor_moduleAddresses {outcomes : Array Outcome} {module : Module} (index : Nat)
    (hdirect : isDirect outcomes method = false) :
    valuesFor method (moduleAddresses (resolver.moduleOutcomes outcomes index module)) =
      resolver.alignedAddresses method module := by
  unfold moduleOutcomes
  dsimp only
  split
  · next hall =>
      -- The method is none of the module's, since those have entries of their own.
      refine (alignedAddresses_eq_nil fun hmem => ?_).symm
      rw [List.all_eq_true.mp hall method hmem] at hdirect
      cases hdirect
  · unfold alignedAddresses pointersOf?
    cases resolver.registrations.code.bind fun code => code.module? module.name with
    | none => rfl
    | some found =>
        dsimp only
        split
        · rw [valuesFor, moduleAddresses, List.filterMap_map, List.filterMap_filterMap]
          refine List.filterMap_congr ?_
          rintro ⟨aligned, pointer⟩ -
          by_cases haligned : aligned = method
          · subst haligned
            dsimp only [Function.comp_apply]
            rw [address?_aligned pointer hdirect]
            by_cases hnull : pointer = 0
            · simp [hnull]
            · cases resolver.executable? pointer <;> simp [hnull]
          · dsimp only [Function.comp_apply]
            rw [if_neg fun h => haligned h.1]
            cases (resolver.aligned outcomes aligned pointer).address? <;> simp [haligned]
        · rfl

theorem valuesFor_moduleGiven (hdirect : isDirect resolver.directOutcomes method = false) :
    valuesFor method resolver.moduleGiven =
      resolver.graph.modules.toList.flatMap (resolver.alignedAddresses method) := by
  have hmodules : resolver.graph.modules.toList =
      (resolver.graph.modules.toList.zipIdx).map Prod.fst := (List.zipIdx_map_fst _ _).symm
  rw [moduleGiven, allModuleOutcomes, List.flatMap_map, valuesFor, List.filterMap_flatMap,
    hmodules, List.flatMap_map, ← hmodules]
  exact List.flatMap_congr fun module _ => valuesFor_moduleAddresses module.2 hdirect

theorem methodAddress?_eq_or_getLast? (hmethod : method < resolver.graph.methods.size) :
    resolver.resolve.methodAddress? method =
      (resolver.ownAddress? method).or
        (resolver.graph.modules.toList.flatMap (resolver.alignedAddresses method)).getLast? := by
  rw [methodAddress?_eq_or hmethod]
  cases hown : resolver.ownAddress? method with
  | some address => rfl
  | none =>
      have hdirect : isDirect resolver.directOutcomes method = false := by
        rw [isDirect_directOutcomes hmethod, hown]
        rfl
      rw [lookup_reverse_eq_getLast?, valuesFor_moduleGiven hdirect]

end Given

/-- A graph without the entries of its methods. -/
def withoutEntries (graph : TypeGraph) : TypeGraph := { graph with methodAddresses := #[] }

/-- Two resolvers on one image, for graphs and registrations that differ in nothing but the entry of
a method in the method address table and the code generation module with a name. -/
structure DiffersAt (one other : Resolver) (method : Nat) (name : String) : Prop where
  machine : one.machine = other.machine
  memory : one.memory = other.memory
  graph : withoutEntries one.graph = withoutEntries other.graph
  entries : ∀ index, index ≠ method →
    one.graph.methodAddresses[index]? = other.graph.methodAddresses[index]?
  modules : ∀ key, key ≠ name →
    (one.registrations.code.bind fun code => code.module? key) =
      other.registrations.code.bind fun code => code.module? key
  genericMethodPointers : one.registrations.code.map CodeRegistration.genericMethodPointers =
    other.registrations.code.map CodeRegistration.genericMethodPointers
  metadata : one.registrations.metadata = other.registrations.metadata

namespace DiffersAt

variable (h : DiffersAt one other method name)
include h

theorem executable? (pointer : Nat) : one.executable? pointer = other.executable? pointer := by
  unfold Resolver.executable? target
  rw [h.machine, h.memory]

theorem ownAddress? {index : Nat} (hindex : index ≠ method) :
    one.ownAddress? index = other.ownAddress? index := by
  unfold Resolver.ownAddress?
  rw [h.entries index hindex, funext h.executable?]

theorem of_graph {α : Type} (look : TypeGraph → α)
    (hlook : ∀ graph, look (withoutEntries graph) = look graph) :
    look one.graph = look other.graph := by
  rw [← hlook, h.graph, hlook]

theorem methodsOf (module : Module) :
    one.graph.methodsOf module = other.graph.methodsOf module :=
  h.of_graph (fun graph => graph.methodsOf module) fun _ => rfl

theorem alignedAddresses {module : Module} {index : Nat}
    (hoff : module.name = name → index ∉ one.graph.methodsOf module) :
    one.alignedAddresses index module = other.alignedAddresses index module := by
  by_cases hname : module.name = name
  · have hlisted := hoff hname
    rw [alignedAddresses_eq_nil hlisted, alignedAddresses_eq_nil (h.methodsOf module ▸ hlisted)]
  · have hpointers : one.pointersOf? module = other.pointersOf? module :=
      h.modules module.name hname
    unfold Resolver.alignedAddresses
    rw [hpointers, h.methodsOf module, funext h.executable?]

theorem methodAddress? {index : Nat} (hindex : index ≠ method)
    (hoff : ∀ module ∈ one.graph.modules, module.name = name →
      index ∉ one.graph.methodsOf module) :
    one.resolve.methodAddress? index = other.resolve.methodAddress? index := by
  have hmethods : one.graph.methods = other.graph.methods := h.of_graph _ fun _ => rfl
  have hmodules : one.graph.modules = other.graph.modules := h.of_graph _ fun _ => rfl
  by_cases hsize : index < one.graph.methods.size
  · have haligned : one.graph.modules.toList.flatMap (one.alignedAddresses index) =
        one.graph.modules.toList.flatMap (other.alignedAddresses index) :=
      List.flatMap_congr fun module hmodule =>
        h.alignedAddresses (hoff module (Array.mem_toList_iff.mp hmodule))
    rw [methodAddress?_eq_or_getLast? hsize, methodAddress?_eq_or_getLast? (hmethods ▸ hsize),
      h.ownAddress? hindex, haligned, hmodules]
  · have hle := Nat.le_of_not_lt hsize
    rw [methodAddress?_eq_none_of_size_le hle, methodAddress?_eq_none_of_size_le (hmethods ▸ hle)]

theorem genericFrom (pointers : Array Nat) (found : List (Nat × Int)) (index : Nat)
    (entries : List GenericMethodEntry) :
    one.genericFrom pointers found index entries =
      other.genericFrom pointers found index entries := by
  have hparts : genericParts? one.graph = genericParts? other.graph :=
    h.of_graph genericParts? fun _ => rfl
  induction entries generalizing found index with
  | nil => rfl
  | cons entry entries ih =>
      have hafter :
          one.foundAfter pointers found entry = other.foundAfter pointers found entry := by
        unfold foundAfter
        rw [hparts, funext h.executable?]
      have hissue : one.rowIssue? pointers found index entry =
          other.rowIssue? pointers found index entry := by
        unfold rowIssue? target
        rw [hparts, funext h.executable?, h.machine]
      rw [genericFrom_cons, genericFrom_cons, hafter, hissue, ih]

theorem generics : one.generics = other.generics := by
  have hpointers := h.genericMethodPointers
  unfold Resolver.generics
  rw [h.metadata]
  cases hone : one.registrations.code with
  | none =>
      rw [hone, Option.map_none, eq_comm, Option.map_eq_none_iff] at hpointers
      rw [hpointers]
  | some code =>
      rw [hone, Option.map_some, eq_comm, Option.map_eq_some_iff] at hpointers
      obtain ⟨otherCode, hother, heq⟩ := hpointers
      rw [hother]
      cases other.registrations.metadata with
      | none => rfl
      | some metadata =>
          dsimp only
          rw [heq, h.genericFrom]

theorem allTypeOffsets : one.allTypeOffsets = other.allTypeOffsets := by
  have htypes : one.graph.types = other.graph.types := h.of_graph _ fun _ => rfl
  unfold Resolver.allTypeOffsets typeOffsets
  rw [h.metadata, htypes, h.memory]

end DiffersAt

/-- An entry of a method is felt by no other method, and the pointers of a module by no method that
is in no module with its name. Neither is felt by generic methods and fields. -/
theorem resolve_local (h : DiffersAt one other method name) :
    (∀ index, index ≠ method →
        (∀ module ∈ one.graph.modules, module.name = name →
          index ∉ one.graph.methodsOf module) →
        one.resolve.methodAddress? index = other.resolve.methodAddress? index) ∧
      (∀ number, one.resolve.genericAddress? number = other.resolve.genericAddress? number) ∧
      ∀ field, one.resolve.fieldOffset? field = other.resolve.fieldOffset? field := by
  have hinstantiations : one.graph.instantiations = other.graph.instantiations :=
    h.of_graph _ fun _ => rfl
  have hfields : one.graph.fields = other.graph.fields := h.of_graph _ fun _ => rfl
  have hgeneric : one.resolve.generic = other.resolve.generic := by
    change tableOf one.graph.instantiations.size one.generics.1 = _
    rw [hinstantiations, h.generics]
    rfl
  have hoffsets : one.resolve.offsets = other.resolve.offsets := by
    change tableOf one.graph.fields.size
      (one.allTypeOffsets.filterMap Except.toOption).flatten = _
    rw [hfields, h.allTypeOffsets]
    rfl
  refine ⟨fun index hindex hoff => h.methodAddress? hindex hoff, fun number => ?_, fun field => ?_⟩
  · rw [Resolution.genericAddress?, hgeneric]
    rfl
  · rw [Resolution.fieldOffset?, hoffsets]
    rfl

/-- A resolver for two modules, the first with one method and the second with two. -/
def twoModules (entries : Array Nat) (modules : List CodeGenModule) : Resolver where
  machine := .x86
  memory :=
    { data := ByteArray.empty, width := .bits32
      space := ⟨[⟨"text", 0, 0, 0x1000, 0x100, ⟨true, false, true⟩⟩], []⟩ }
  graph :=
    { release := .v29_0, modules := #[⟨"m", 0, 1, 0⟩, ⟨"n", 1, 1, 0⟩]
      types := #[⟨"t", "", some 0, none, none, [], [0], [], [], [], [], 0, 0, 0⟩,
        ⟨"u", "", some 1, none, none, [], [1, 2], [], [], [], [], 0, 0, 0⟩]
      methods := #[⟨"a", 0, 0, [], [], 0, 0, 0, 1⟩, ⟨"b", 1, 0, [], [], 0, 0, 0, 1⟩,
        ⟨"c", 1, 0, [], [], 0, 0, 0, 2⟩]
      fields := #[], properties := #[], genericParameters := #[], references := #[]
      instantiations := #[], methodSpecs := #[], literals := #[], methodAddresses := entries }
  registrations := { code := some ⟨0, [], modules, #[]⟩, metadata := none, issues := [] }

theorem resolve_local_twoModules :
    (twoModules #[0, 0x1020]
        [⟨0, "n", [0x1030, 0x1040]⟩, ⟨0, "m", [0x1008]⟩]).resolve.methodAddress? 0 =
      (twoModules #[0, 0] [⟨0, "m", [0x1008]⟩]).resolve.methodAddress? 0 := by
  have hdiffers : DiffersAt
      (twoModules #[0, 0x1020] [⟨0, "n", [0x1030, 0x1040]⟩, ⟨0, "m", [0x1008]⟩])
      (twoModules #[0, 0] [⟨0, "m", [0x1008]⟩]) 1 "n" := by
    refine ⟨rfl, rfl, rfl, ?_, ?_, rfl, rfl⟩
    · intro index hindex
      match index with
      | 0 => rfl
      | 1 => exact absurd rfl hindex
      | _ + 2 => rfl
    · intro key hkey
      have hne : ("n" == key) = false := by simpa using Ne.symm hkey
      simp [twoModules, CodeRegistration.module?, hne]
  obtain ⟨hmethods, -, -⟩ := resolve_local hdiffers
  refine hmethods 0 (by decide) ?_
  intro module hmodule hname hmem
  have hcases : module = ⟨"m", 0, 1, 0⟩ ∨ module = ⟨"n", 1, 1, 0⟩ := by
    simpa [twoModules] using hmodule
  rcases hcases with rfl | rfl
  · exact absurd hname (by decide)
  · rw [TypeGraph.mem_methodsOf] at hmem
    exact absurd hmem (by decide)

end TypeAtlas.Resolver
