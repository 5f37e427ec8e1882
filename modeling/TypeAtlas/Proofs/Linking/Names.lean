import TypeAtlas.Proofs.Linking.Closed
import TypeAtlas.Proofs.Linking.Ladder

namespace TypeAtlas.TypeGraph

/-- What the kind of an array or a pointer adds to the name of its elements: brackets, brackets with
one comma less than there are dimensions, or a star. -/
def AddsToName (reference : TypeReference) (text : String) : Prop :=
  reference.kind = Kind.vector ∧ text = "[]" ∨
    reference.kind = Kind.array ∧
      text = "[" ++ String.ofList (List.replicate (max reference.rank 1 - 1) ',') ++ "]" ∨
    reference.kind = Kind.pointer ∧ text = "*"

/-- What is shown of a name is the part in front of the first mark of generic arity. -/
def ShownOf (name shown : String) : Prop :=
  arityMark ∉ shown.toList ∧
    (name = shown ∨ ∃ hidden, name.toList = shown.toList ++ arityMark :: hidden)

/-- A reference has a name, which is written if more calls may be nested than a number. -/
structure Named (graph : TypeGraph) (number depth : Nat) (name : String) : Prop where
  found : graph.typeName? number = some name
  written : ∀ room,
    graph.typeName room number = if depth < room then .ok name else .error tooManyCalls

section Loop

variable {graph : TypeGraph} {number : Nat}

theorem passElements_append (graph : TypeGraph) (number : Nat) (suffixes more : List String) :
    graph.passElements number (suffixes ++ more) =
      (graph.passElements number suffixes).map fun found => (found.1, found.2 ++ more) := by
  induction number using Nat.strongRecOn generalizing suffixes with
  | ind number ih =>
      rw [passElements, passElements]
      cases graph.references[number]? with
      | none => rfl
      | some reference =>
          cases htarget : reference.target with
          | element inner =>
              by_cases hlt : inner < number
              · simpa [htarget, hlt] using ih inner hlt (suffix reference :: suffixes)
              · simp [htarget, hlt]
          | definition | parameter | instantiation | nothing => simp [htarget]

theorem exists_passElements (hclosed : Closed graph) (hlt : number < graph.references.size)
    (suffixes : List String) : ∃ found, graph.passElements number suffixes = some found := by
  induction number using Nat.strongRecOn generalizing suffixes with
  | ind number ih =>
      have hreference := Array.getElem?_eq_getElem hlt
      have hinside := hclosed.references _ (Array.getElem_mem hlt)
      have hbelow := hclosed.descending hreference
      rw [passElements, hreference]
      generalize graph.references[number] = reference at hinside hbelow
      generalize Kind.role reference.kind = role at hinside
      generalize htarget : reference.target = target at hinside
      cases hinside with
      | element hinner =>
          have hsmaller := hbelow _ (.element htarget)
          simpa [htarget, hsmaller] using ih _ hsmaller hinner (suffix reference :: suffixes)
      | definition | parameter | instantiation | plain => simp [htarget]

end Loop

section Equations

variable {graph : TypeGraph} (hclosed : Closed graph) {number index : Nat}
  {reference : TypeReference} (hreference : graph.references[number]? = some reference)

include hclosed hreference

theorem typeName_element {inner : Nat} (htarget : reference.target = .element inner)
    (room : Nat) :
    graph.typeName room number = (graph.typeName room inner).map (· ++ suffix reference) := by
  cases room with
  | zero => rfl
  | succ room =>
      have hlt := hclosed.descending hreference inner (.element htarget)
      have hnumber := (Array.getElem?_eq_some_iff.mp hreference).1
      obtain ⟨found, hfound⟩ := exists_passElements hclosed (Nat.lt_trans hlt hnumber) []
      have hpassed : graph.passElements number [] =
          some (found.1, found.2 ++ [suffix reference]) := by
        rw [passElements, hreference]
        simp only [htarget]
        rw [dif_pos hlt]
        refine (passElements_append graph inner [] [suffix reference]).trans ?_
        rw [hfound, Option.map_some]
      rw [typeName, typeName, hpassed, hfound]
      dsimp only
      cases graph.leafName (graph.typeName room) found.1 with
      | error fault => rfl
      | ok name =>
          refine congrArg Except.ok ?_
          simp [String.join_append, String.append_assoc]

omit hclosed in
theorem typeName_leaf (hleaf : ∀ inner, reference.target ≠ .element inner) (room : Nat) :
    graph.typeName (room + 1) number =
      (graph.leafName (graph.typeName room) reference).map (· ++ byrefSuffix reference) := by
  have hpassed : graph.passElements number [] = some (reference, []) := by
    rw [passElements, hreference]
    cases htarget : reference.target with
    | element inner => exact absurd htarget (hleaf inner)
    | definition | parameter | instantiation | nothing => simp [htarget]
  rw [typeName, hpassed]
  dsimp only
  cases graph.leafName (graph.typeName room) reference with
  | error fault => rfl
  | ok name => exact congrArg Except.ok (by simp)

omit hclosed in
theorem typeName_instantiation {instantiation : Instantiation}
    (htarget : reference.target = .instantiation index)
    (hinstantiation : graph.instantiations[index]? = some instantiation) (room : Nat) :
    graph.typeName (room + 1) number =
      (instantiation.arguments.mapM (graph.typeName room)).map fun names =>
        graph.definitionName instantiation.definition ++ "<" ++ ", ".intercalate names ++ ">" ++
          byrefSuffix reference := by
  rw [typeName_leaf hreference (by simp [htarget]), leafName, htarget]
  simp only [hinstantiation]
  cases instantiation.arguments.mapM (graph.typeName room) <;> rfl

end Equations

section Parts

theorem addsToName_elementSuffix {reference : TypeReference}
    (hrole : Kind.role reference.kind = .element) :
    AddsToName reference (elementSuffix reference) := by
  have hkind : reference.kind = Kind.vector ∨ reference.kind = Kind.array ∨
      reference.kind = Kind.pointer := by
    unfold Kind.role at hrole
    grind
  unfold AddsToName elementSuffix
  rcases hkind with hkind | hkind | hkind
  · exact Or.inl ⟨hkind, if_pos hkind⟩
  · have hvector : ¬Kind.array = Kind.vector := by decide
    exact Or.inr (Or.inl ⟨hkind, by rw [hkind, if_neg hvector, if_pos rfl]⟩)
  · have hvector : ¬Kind.pointer = Kind.vector := by decide
    have harray : ¬Kind.pointer = Kind.array := by decide
    exact Or.inr (Or.inr ⟨hkind, by rw [hkind, if_neg hvector, if_neg harray]⟩)

theorem shownOf_takeWhile (name : String) :
    ShownOf name (String.ofList (name.toList.takeWhile (· != arityMark))) := by
  unfold ShownOf
  rw [String.toList_ofList]
  refine ⟨fun hmem => ?_, ?_⟩
  · simpa using List.mem_takeWhile_imp hmem
  · have hsplit := List.takeWhile_append_dropWhile (p := (· != arityMark)) (l := name.toList)
    cases hrest : name.toList.dropWhile (· != arityMark) with
    | nil =>
        rw [hrest, List.append_nil] at hsplit
        exact Or.inl (by rw [hsplit, String.ofList_toList])
    | cons first hidden =>
        have hsome : name.toList.dropWhile (· != arityMark) ≠ [] := by simp [hrest]
        have hfirst := List.head_dropWhile_not (· != arityMark) hsome
        simp only [hrest, List.head_cons, bne_eq_false_iff_eq] at hfirst
        rw [hrest, hfirst] at hsplit
        exact Or.inr ⟨hidden, hsplit.symm⟩

theorem exists_shownOf_definitionName {graph : TypeGraph} {index : Nat}
    (hlt : index < graph.types.size) :
    ∃ type, graph.types[index]? = some type ∧ ShownOf type.name (graph.definitionName index) := by
  have htype := Array.getElem?_eq_getElem hlt
  refine ⟨_, htype, ?_⟩
  rw [definitionName, htype]
  exact shownOf_takeWhile _

end Parts

section Naming

variable {graph : TypeGraph} {number depth : Nat} {reference : TypeReference}

theorem named_of_leaf (base : String)
    (hreference : graph.references[number]? = some reference)
    (hleaf : ∀ inner, reference.target ≠ .element inner)
    (hfound : graph.typeName? number = some (base ++ byrefSuffix reference))
    (hwritten : ∀ room, graph.leafName (graph.typeName room) reference =
      if depth ≤ room then .ok base else .error tooManyCalls) :
    graph.Named number depth (base ++ byrefSuffix reference) where
  found := hfound
  written room := by
    cases room with
    | zero => rfl
    | succ room =>
        rw [typeName_leaf hreference hleaf, hwritten]
        simp only [Nat.lt_succ_iff]
        split <;> rfl

theorem named_arguments {numbers : List Nat} {trees : List TypeTree}
    (htrees : List.Forall₂ graph.Unfolds numbers trees)
    (h : ∀ number ∈ numbers, ∀ tree, graph.Unfolds number tree →
      ∃ name, graph.Named number tree.nesting name) :
    ∃ names, numbers.mapM graph.typeName? = some names ∧
      ∀ room, numbers.mapM (graph.typeName room) =
        if TypeTree.argumentNesting trees ≤ room then .ok names else .error tooManyCalls := by
  induction htrees with
  | nil => exact ⟨[], rfl, fun _ => rfl⟩
  | @cons number tree numbers trees htree _ ih =>
      obtain ⟨name, hname⟩ := h number List.mem_cons_self tree htree
      obtain ⟨names, hfound, hwritten⟩ :=
        ih fun other hother => h other (List.mem_cons_of_mem _ hother)
      refine ⟨name :: names, by simp [List.mapM_cons, hname.found, hfound], fun room => ?_⟩
      simp only [List.mapM_cons, hname.written, hwritten, TypeTree.argumentNesting, max_le_iff,
        Nat.succ_le_iff]
      by_cases hfirst : tree.nesting < room
      · by_cases hrest : TypeTree.argumentNesting trees ≤ room
        · rw [if_pos hfirst, if_pos hrest, if_pos ⟨hfirst, hrest⟩]
          rfl
        · rw [if_pos hfirst, if_neg hrest, if_neg fun hboth => hrest hboth.2]
          rfl
      · have hneither : ¬(tree.nesting < room ∧ TypeTree.argumentNesting trees ≤ room) :=
          fun hboth => hfirst hboth.1
        rw [if_neg hfirst, if_neg hneither]
        rfl

variable (hclosed : Closed graph)

include hclosed

theorem exists_tree_of_lt (hlt : number < graph.references.size) :
    ∃ tree, graph.Unfolds number tree := by
  induction number using Nat.strongRecOn with
  | ind number ih =>
      have hreference := Array.getElem?_eq_getElem hlt
      have hinside := hclosed.references _ (Array.getElem_mem hlt)
      have hbelow := hclosed.descending hreference
      generalize graph.references[number] = reference at hreference hinside hbelow
      suffices h : ∃ tree, graph.TargetUnfolds reference.head reference.target tree by
        obtain ⟨tree, htree⟩ := h
        exact ⟨tree, .reference hreference htree⟩
      generalize Kind.role reference.kind = role at hinside
      generalize htarget : reference.target = target at hinside ⊢
      cases hinside with
      | @element inner h =>
          obtain ⟨tree, htree⟩ := ih inner (hbelow inner (.element htarget)) h
          exact ⟨_, .element htree⟩
      | definition => exact ⟨_, .definition⟩
      | parameter => exact ⟨_, .parameter⟩
      | @instantiation _ instantiation hinstantiation _ =>
          have harguments :=
            (hclosed.instantiations _ (Array.mem_of_getElem? hinstantiation)).arguments
          obtain ⟨trees, htrees⟩ := exists_forall₂ fun argument hargument =>
            ih argument (hbelow argument (.argument htarget hinstantiation hargument))
              (harguments argument hargument)
          exact ⟨_, .instantiation hinstantiation htrees⟩
      | plain => exact ⟨_, .plain⟩

/-- The name of a reference is written if as many calls may be nested as its generic instances are,
and one more. -/
theorem exists_named {tree : TypeTree} (htree : graph.Unfolds number tree) :
    ∃ name, graph.Named number tree.nesting name := by
  -- Elements and arguments have smaller numbers than the reference that they are parts of.
  induction number using Nat.strongRecOn generalizing tree with
  | ind number ih =>
      obtain @⟨_, reference, _, hreference, htree⟩ := htree
      have hinside := hclosed.references _ (Array.mem_of_getElem? hreference)
      have hbelow := hclosed.descending hreference
      generalize Kind.role reference.kind = role at hinside
      generalize htarget : reference.target = target at hinside htree
      cases htree with
      | @element _ inner _ htree =>
          have hlt := hbelow inner (.element htarget)
          obtain ⟨name, hname⟩ := ih inner hlt htree
          refine ⟨name ++ suffix reference, ?_, fun room => ?_⟩
          · rw [typeName?, hreference]
            simp [htarget, hlt, hname.found, suffix, String.append_assoc]
          · rw [typeName_element hclosed hreference htarget, hname.written, TypeTree.nesting]
            split <;> rfl
      | @definition _ type =>
          cases hinside with
          | definition hlt =>
              refine ⟨_, named_of_leaf (graph.definitionName type) hreference (by simp [htarget])
                ?_ fun room => ?_⟩
              · rw [typeName?, hreference]
                simp [htarget, definitionName?_of_lt hlt]
              · simp [leafName, htarget, TypeTree.nesting]
      | @parameter _ parameter =>
          cases hinside with
          | parameter hlt =>
              refine ⟨_, named_of_leaf graph.genericParameters[parameter].name hreference
                (by simp [htarget]) ?_ fun room => ?_⟩
              · rw [typeName?, hreference]
                simp [htarget, hlt]
              · simp [leafName, htarget, hlt, TypeTree.nesting]
      | @instantiation _ index instantiation trees hindex htrees =>
          cases hinside with
          | instantiation hindex' htype =>
              obtain rfl := Option.some.inj (hindex.symm.trans hindex')
              have hmem := Array.mem_of_getElem? hindex
              have hlt := (hclosed.instantiations instantiation hmem).definition
              rw [htype, if_neg Bool.false_ne_true] at hlt
              have hsmaller : ∀ argument ∈ instantiation.arguments, argument < number :=
                fun argument hargument => hbelow argument (.argument htarget hindex hargument)
              obtain ⟨names, hfound, hwritten⟩ := named_arguments htrees
                fun argument hargument _ htree => ih argument (hsmaller argument hargument) htree
              refine ⟨_, named_of_leaf (graph.definitionName instantiation.definition ++ "<" ++
                ", ".intercalate names ++ ">") hreference (by simp [htarget]) ?_ fun room => ?_⟩
              · have hguards : instantiation.arguments.mapM (fun argument =>
                    if argument < number then graph.typeName? argument else none) =
                      some names :=
                  (mapM_congr fun argument hargument => if_pos (hsmaller argument hargument)).trans
                    hfound
                rw [typeName?, hreference]
                simp [htarget, hindex, definitionName?_of_lt hlt, hguards]
              · rw [leafName, htarget]
                by_cases hle : TypeTree.argumentNesting trees ≤ room
                · simp [hindex, hwritten, TypeTree.nesting, hle]
                · simp [hindex, hwritten, TypeTree.nesting, hle]
      | plain =>
          cases hinside with
          | plain =>
              refine ⟨_, named_of_leaf (plainName reference.kind) hreference (by simp [htarget])
                ?_ fun room => ?_⟩
              · rw [typeName?, hreference]
                simp [htarget]
              · simp [leafName, htarget, TypeTree.nesting]

theorem exists_named_of_lt (hlt : number < graph.references.size) :
    ∃ tree name, graph.Unfolds number tree ∧ graph.Named number tree.nesting name := by
  obtain ⟨tree, htree⟩ := exists_tree_of_lt hclosed hlt
  obtain ⟨name, hname⟩ := exists_named hclosed htree
  exact ⟨tree, name, htree, hname⟩

end Naming

/-- A graph that is built is closed, so nothing that is looked up in it is missing: names of
methods, methods of modules, and names of references. The name of a reference is written unless its
generic instances are nested too deep. -/
theorem closed_of_build {metadata : Metadata} {graph : TypeGraph}
    (h : (build metadata).outcome.1 = .ok graph) :
    Closed graph ∧
      (∀ index < graph.methods.size, graph.methodName? index = some (graph.methodName index)) ∧
      (∀ index < graph.modules.size,
        graph.moduleMethods? index = some (graph.moduleMethods index)) ∧
      ∀ number < graph.references.size,
        ∃ tree name, graph.Unfolds number tree ∧ graph.Named number tree.nesting name := by
  obtain ⟨links, hlinked⟩ := exists_linked_of_build h
  have hclosed := closed_of_linked hlinked
  exact ⟨hclosed, fun index hlt => methodName?_of_closed hclosed hlt,
    fun index hlt => moduleMethods?_of_closed hclosed hlt,
    fun number hlt => exists_named_of_lt hclosed hlt⟩

theorem closed_smallBlob : (build smallBlob).outcome.1 = .ok smallGraph ∧ Closed smallGraph ∧
    ∀ number < smallGraph.references.size, ∃ tree name,
      smallGraph.Unfolds number tree ∧ smallGraph.Named number tree.nesting name := by
  obtain ⟨hclosed, -, -, hnames⟩ := closed_of_build build_smallBlob
  exact ⟨build_smallBlob, hclosed, hnames⟩

/-- However many calls may be nested, some graph has a reference whose name takes more. -/
theorem exists_typeName_eq_error (room : Nat) : ∃ metadata graph number,
    (build metadata).outcome.1 = .ok graph ∧ number < graph.references.size ∧
      graph.typeName room number = .error tooManyCalls := by
  obtain ⟨metadata, graph, number, tree, hgraph, htree, hnesting⟩ := exists_nesting_eq room
  obtain ⟨links, hlinked⟩ := exists_linked_of_build hgraph
  obtain ⟨name, hname⟩ := exists_named (closed_of_linked hlinked) htree
  refine ⟨metadata, graph, number, hgraph, ?_, ?_⟩
  · cases htree with
    | reference hreference _ => exact (Array.getElem?_eq_some_iff.mp hreference).1
  · rw [hname.written, hnesting, if_neg (Nat.lt_irrefl room)]

/-- In a graph that has been built every reference has a name, which is written exactly if more
calls may be nested than its generic instances are; no number of calls is enough for all graphs. The
name of an array or a pointer is that of its elements with what its kind adds, and the name of a
generic instance is what is shown of its definition with the names of its arguments in order. -/
theorem typeName_of_build {metadata : Metadata} {graph : TypeGraph} {number : Nat}
    (h : (build metadata).outcome.1 = .ok graph) (hlt : number < graph.references.size) :
    (∃ tree name, graph.Unfolds number tree ∧ ∀ room, graph.typeName room number =
        if tree.nesting < room then .ok name else .error tooManyCalls) ∧
      (∃ reference, graph.references[number]? = some reference ∧
        (Kind.role reference.kind = .element → ∃ inner < number, ∃ text,
          reference.target = .element inner ∧ AddsToName reference text ∧
          ∀ room, graph.typeName room number = (graph.typeName room inner).map
            fun name => name ++ (text ++ if reference.byref then "&" else "")) ∧
        (Kind.role reference.kind = .instantiation → ∃ index instantiation type shown,
          reference.target = .instantiation index ∧
          graph.instantiations[index]? = some instantiation ∧
          (∀ argument ∈ instantiation.arguments, argument < number) ∧
          graph.types[instantiation.definition]? = some type ∧ ShownOf type.name shown ∧
          ∀ room, graph.typeName (room + 1) number =
            (instantiation.arguments.mapM (graph.typeName room)).map fun names =>
              shown ++ "<" ++ ", ".intercalate names ++ ">" ++
                if reference.byref then "&" else "")) ∧
      ∀ room, ∃ metadata graph number, (build metadata).outcome.1 = .ok graph ∧
        number < graph.references.size ∧ graph.typeName room number = .error tooManyCalls := by
  obtain ⟨links, hlinked⟩ := exists_linked_of_build h
  have hclosed := closed_of_linked hlinked
  obtain ⟨tree, name, htree, hname⟩ := exists_named_of_lt hclosed hlt
  have hreference := Array.getElem?_eq_getElem hlt
  have hinside := hclosed.references _ (Array.getElem_mem hlt)
  have hbelow := hclosed.descending hreference
  generalize graph.references[number] = reference at hreference hinside hbelow
  refine ⟨⟨tree, name, htree, hname.written⟩,
    ⟨reference, hreference, fun hrole => ?_, fun hrole => ?_⟩, exists_typeName_eq_error⟩
  · rw [hrole] at hinside
    generalize htarget : reference.target = target at hinside
    cases hinside with
    | @element inner =>
        exact ⟨inner, hbelow inner (.element htarget), _, rfl, addsToName_elementSuffix hrole,
          typeName_element hclosed hreference htarget⟩
  · rw [hrole] at hinside
    generalize htarget : reference.target = target at hinside
    cases hinside with
    | @instantiation index instantiation hindex htype =>
        have hdefinition :=
          (hclosed.instantiations _ (Array.mem_of_getElem? hindex)).definition
        rw [htype, if_neg Bool.false_ne_true] at hdefinition
        obtain ⟨type, hfound, hshown⟩ := exists_shownOf_definitionName hdefinition
        refine ⟨index, instantiation, type, _, rfl, hindex, fun argument hargument => ?_, hfound,
          hshown, typeName_instantiation hreference htarget hindex⟩
        exact hbelow argument (.argument htarget hindex hargument)

theorem typeName_smallBlob : (build smallBlob).outcome.1 = .ok smallGraph ∧
    (∀ room, smallGraph.typeName room 1 = (smallGraph.typeName room 0).map (· ++ "[]")) ∧
      smallGraph.typeName 2 2 = .ok "<int[]>" ∧
        smallGraph.typeName 1 2 = .error tooManyCalls := by
  obtain ⟨-, ⟨reference, hreference, helement, -⟩, -⟩ :=
    typeName_of_build build_smallBlob (show 1 < smallGraph.references.size by decide)
  have hvector : smallGraph.references[1]? = some ⟨Kind.vector, .element 0, false, 0⟩ := rfl
  obtain rfl := Option.some.inj (hreference.symm.trans hvector)
  refine ⟨build_smallBlob, fun room => ?_, by cbv, by cbv⟩
  obtain ⟨inner, -, text, htarget, hadds, hname⟩ := helement rfl
  obtain rfl := Target.element.inj htarget
  rcases hadds with ⟨-, rfl⟩ | ⟨hkind, -⟩ | ⟨hkind, -⟩
  · simpa using hname room
  · cases hkind
  · cases hkind

end TypeAtlas.TypeGraph
