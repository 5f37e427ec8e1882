import TypeAtlas.Proofs.Linking.Unfolding
/-!
Canonical references: every row of the type references that a graph uses has become a reference
that stands for the same tree, and two rows have become the same reference exactly if their trees
are equal. Instantiations of method specs are the same exactly if the method and the trees of both
argument lists are.
-/

namespace TypeAtlas

open Links TypeGraph

/-- A row of the type references has become a reference of a graph: a definition that uses the row
uses the reference, or a row and a reference that do so have them for their element or for one of
their arguments. -/
inductive Resolved (rows : Rows) (graph : TypeGraph) : Int → Nat → Prop
  | field {index : Nat} {row : FieldRow} {field : FieldDefinition}
      (hrow : rows.fields[index]? = some row) (hfield : graph.fields[index]? = some field) :
      Resolved rows graph row.type field.type
  | returned {index : Nat} {row : MethodRow} {method : Method}
      (hrow : rows.methods[index]? = some row) (hmethod : graph.methods[index]? = some method) :
      Resolved rows graph row.returnType method.returnType
  | parameter {index position : Nat} {row : MethodRow} {method : Method}
      {listed : List ParameterRow} {parameterRow : ParameterRow} {parameter : Parameter}
      (hrow : rows.methods[index]? = some row) (hmethod : graph.methods[index]? = some method)
      (hlisted : valuesAt? rows.parameters row.parameterStart row.parameterCount = some listed)
      (hparameterRow : listed[position]? = some parameterRow)
      (hparameter : method.parameters[position]? = some parameter) :
      Resolved rows graph parameterRow.type parameter.type
  | interface {index position number : Nat} {row : TypeRow} {type : TypeDefinition}
      {listed : List Int} {used : Int} (hrow : rows.types[index]? = some row)
      (htype : graph.types[index]? = some type)
      (hlisted : valuesAt? rows.interfaces row.interfaceStart row.interfaceCount = some listed)
      (hused : listed[position]? = some used) (hnumber : type.interfaces[position]? = some number) :
      Resolved rows graph used number
  | constraint {index position number : Nat} {row : GenericParameterRow}
      {parameter : GenericParameter} {listed : List Int} {used : Int}
      (hrow : rows.genericParameters[index]? = some row)
      (hparameter : graph.genericParameters[index]? = some parameter)
      (hlisted : valuesAt? rows.constraints row.constraintStart row.constraintCount = some listed)
      (hused : listed[position]? = some used)
      (hnumber : parameter.constraints[position]? = some number) :
      Resolved rows graph used number
  | classArgument {index spec position number : Nat} {row : MethodSpecRow}
      {instantiation : Instantiation} {listed : List Int} {used : Int}
      (hrow : rows.methodSpecs[index]? = some row) (hspec : graph.methodSpecs[index]? = some spec)
      (hinstantiation : graph.instantiations[spec]? = some instantiation)
      (hlisted : rows.argumentRows? row.classArguments = some listed)
      (hused : listed[position]? = some used)
      (hnumber : instantiation.classArguments[position]? = some number) :
      Resolved rows graph used number
  | methodArgument {index spec position number : Nat} {row : MethodSpecRow}
      {instantiation : Instantiation} {listed : List Int} {used : Int}
      (hrow : rows.methodSpecs[index]? = some row) (hspec : graph.methodSpecs[index]? = some spec)
      (hinstantiation : graph.instantiations[spec]? = some instantiation)
      (hlisted : rows.argumentRows? row.methodArguments = some listed)
      (hused : listed[position]? = some used)
      (hnumber : instantiation.arguments[position]? = some number) :
      Resolved rows graph used number
  | element {index : Int} {number inner : Nat} {row : ReferenceRow} {reference : TypeReference}
      (h : Resolved rows graph index number) (hrow : valueAt? rows.references index = some row)
      (hrole : Kind.role row.kind = .element)
      (hreference : graph.references[number]? = some reference)
      (htarget : reference.target = .element inner) : Resolved rows graph row.data inner
  | argument {index : Int} {number found position inner : Nat} {row : ReferenceRow}
      {classRow : GenericClassRow} {listed : List Int} {used : Int} {reference : TypeReference}
      {instantiation : Instantiation} (h : Resolved rows graph index number)
      (hrow : valueAt? rows.references index = some row)
      (hrole : Kind.role row.kind = .instantiation)
      (hclass : valueAt? rows.genericClasses row.data = some classRow)
      (hlisted : rows.argumentRows? classRow.arguments = some listed)
      (hreference : graph.references[number]? = some reference)
      (htarget : reference.target = .instantiation found)
      (hinstantiation : graph.instantiations[found]? = some instantiation)
      (hused : listed[position]? = some used)
      (hnumber : instantiation.arguments[position]? = some inner) :
      Resolved rows graph used inner

/-- Every row that a definition uses has become a reference. -/
structure Covers (rows : Rows) (graph : TypeGraph) : Prop where
  fields : graph.fields.size = rows.fields.size
  methods : graph.methods.size = rows.methods.size
  types : graph.types.size = rows.types.size
  genericParameters : graph.genericParameters.size = rows.genericParameters.size
  methodSpecs : graph.methodSpecs.size = rows.methodSpecs.size
  parameters : ∀ {index : Nat} {row : MethodRow} {method : Method},
    rows.methods[index]? = some row → graph.methods[index]? = some method →
      ∃ listed, valuesAt? rows.parameters row.parameterStart row.parameterCount = some listed ∧
        listed.length = method.parameters.length
  interfaces : ∀ {index : Nat} {row : TypeRow} {type : TypeDefinition},
    rows.types[index]? = some row → graph.types[index]? = some type →
      ∃ listed, valuesAt? rows.interfaces row.interfaceStart row.interfaceCount = some listed ∧
        listed.length = type.interfaces.length
  constraints : ∀ {index : Nat} {row : GenericParameterRow} {parameter : GenericParameter},
    rows.genericParameters[index]? = some row →
      graph.genericParameters[index]? = some parameter →
        ∃ listed,
          valuesAt? rows.constraints row.constraintStart row.constraintCount = some listed ∧
            listed.length = parameter.constraints.length
  specs : ∀ {index spec : Nat} {row : MethodSpecRow}, rows.methodSpecs[index]? = some row →
    graph.methodSpecs[index]? = some spec →
      ∃ instantiation classRows methodRows, graph.instantiations[spec]? = some instantiation ∧
        rows.argumentRows? row.classArguments = some classRows ∧
        rows.argumentRows? row.methodArguments = some methodRows ∧
        classRows.length = instantiation.classArguments.length ∧
        methodRows.length = instantiation.arguments.length

/-- References and instantiations stand for what their rows stand for, and each of them stands for
something else. -/
structure Canonical (rows : Rows) (graph : TypeGraph) : Prop where
  covers : Covers rows graph
  exact : ∀ {index : Int} {number : Nat}, Resolved rows graph index number →
    ∃ tree, graph.Unfolds number tree ∧ ∀ other, rows.Unfolds index other ↔ other = tree
  canonical : ∀ {i j : Int} {m n : Nat}, Resolved rows graph i m → Resolved rows graph j n →
    (m = n ↔ ∃ tree, rows.Unfolds i tree ∧ rows.Unfolds j tree)
  specTrees : ∀ {index : Nat} {row : MethodSpecRow}, rows.methodSpecs[index]? = some row →
    ∃ classTrees methodTrees,
      (∀ other, rows.ArgumentsUnfold row.classArguments other ↔ other = classTrees) ∧
        ∀ other, rows.ArgumentsUnfold row.methodArguments other ↔ other = methodTrees
  specs : ∀ {i j m n : Nat} {row row' : MethodSpecRow}, rows.methodSpecs[i]? = some row →
    rows.methodSpecs[j]? = some row' → graph.methodSpecs[i]? = some m →
      graph.methodSpecs[j]? = some n →
        (m = n ↔ row.method = row'.method ∧
          (∃ trees, rows.ArgumentsUnfold row.classArguments trees ∧
            rows.ArgumentsUnfold row'.classArguments trees) ∧
          ∃ trees, rows.ArgumentsUnfold row.methodArguments trees ∧
            rows.ArgumentsUnfold row'.methodArguments trees)

variable {rows : Rows} {links : Links} {graph : TypeGraph}

theorem leads_of_getElem? {listed : List Int} {numbers : List Nat}
    (h : List.Forall₂ (Leads rows links) listed numbers) {position number : Nat} {index : Int}
    (hindex : listed[position]? = some index) (hnumber : numbers[position]? = some number) :
    Leads rows links index number := by
  obtain ⟨other, hother, hleads⟩ := exists_getElem?_of_forall₂ h hnumber
  obtain rfl := Option.some.inj (hother.symm.trans hindex)
  exact hleads

theorem leads_of_rangeLeads {indices : Array Int} {start count : Int} {table : Table} {site : Site}
    {listed : List Int} {numbers : List Nat}
    (h : RangeLeads rows links indices (Bounds.range rows start count table site) numbers)
    (hlisted : valuesAt? indices start count = some listed) {position number : Nat} {used : Int}
    (hused : listed[position]? = some used) (hnumber : numbers[position]? = some number) :
    Leads rows links used number := by
  obtain ⟨listed', hlisted', hleads⟩ := RangeLeads.exists_rows h
  obtain rfl := Option.some.inj (hlisted.symm.trans hlisted')
  exact leads_of_getElem? hleads hused hnumber

theorem leads_of_instLeads (hlinked : graph.Linked rows links) {index : Int} {listed : List Int}
    {numbers : List Nat} (h : InstLeads rows links index numbers)
    (hlisted : rows.argumentRows? index = some listed) {position number : Nat} {used : Int}
    (hused : listed[position]? = some used) (hnumber : numbers[position]? = some number) :
    Leads rows links used number := by
  obtain ⟨listed', hlisted', hleads⟩ := InstLeads.exists_rows hlinked.valid h
  obtain rfl := Option.some.inj (hlisted.symm.trans hlisted')
  exact leads_of_getElem? hleads hused hnumber

theorem targetLeads_of_leads (hlinked : graph.Linked rows links) {index : Int} {number : Nat}
    {row : ReferenceRow} {reference : TypeReference} (h : Leads rows links index number)
    (hrow : valueAt? rows.references index = some row)
    (hreference : graph.references[number]? = some reference) :
    TargetLeads rows links (Kind.role row.kind) row.data reference.target := by
  obtain ⟨i, rfl, -, hnumber⟩ := h
  obtain ⟨row', target, hrow', hreference', hleads⟩ := hlinked.valid.linked hnumber
  obtain rfl := Option.some.inj (hrow'.symm.trans hrow)
  rw [hlinked.references] at hreference
  obtain rfl := Option.some.inj (hreference'.symm.trans hreference)
  exact hleads

theorem leads_of_resolved (hlinked : graph.Linked rows links) {index : Int} {number : Nat}
    (h : Resolved rows graph index number) : Leads rows links index number := by
  induction h with
  | field hrow hfield => exact (hlinked.fields.related hrow hfield).type
  | returned hrow hmethod => exact (hlinked.methods.related hrow hmethod).returnType
  | parameter hrow hmethod hlisted hparameterRow hparameter =>
      obtain ⟨range, hrange, hparameters⟩ := (hlinked.methods.related hrow hmethod).parameters
      obtain ⟨listed', hlisted', hleads⟩ := exists_values_of_range hrange hparameters
      obtain rfl := Option.some.inj (hlisted.symm.trans hlisted')
      obtain ⟨other, hother, hmade⟩ := exists_getElem?_of_forall₂ hleads hparameter
      obtain rfl := Option.some.inj (hother.symm.trans hparameterRow)
      exact hmade.type
  | interface hrow htype hlisted hused hnumber =>
      have hleads := (hlinked.types.related hrow htype).interfaces
      exact leads_of_rangeLeads hleads hlisted hused hnumber
  | constraint hrow hparameter hlisted hused hnumber =>
      have hleads := (hlinked.genericParameters.related hrow hparameter).constraints
      exact leads_of_rangeLeads hleads hlisted hused hnumber
  | classArgument hrow hspec hinstantiation hlisted hused hnumber =>
      obtain ⟨_, _, _, _, hclass, _, hfound⟩ := hlinked.methodSpecs.related hrow hspec
      rw [← hlinked.instantiations] at hfound
      obtain rfl := Option.some.inj (hfound.symm.trans hinstantiation)
      exact leads_of_instLeads hlinked hclass hlisted hused hnumber
  | methodArgument hrow hspec hinstantiation hlisted hused hnumber =>
      obtain ⟨_, _, _, _, _, hmethod, hfound⟩ := hlinked.methodSpecs.related hrow hspec
      rw [← hlinked.instantiations] at hfound
      obtain rfl := Option.some.inj (hfound.symm.trans hinstantiation)
      exact leads_of_instLeads hlinked hmethod hlisted hused hnumber
  | element h hrow hrole hreference htarget ih =>
      have hleads := targetLeads_of_leads hlinked ih hrow hreference
      rw [hrole, htarget] at hleads
      cases hleads with
      | element hleads => exact hleads
  | argument h hrow hrole hclass hlisted hreference htarget hinstantiation hused hnumber ih =>
      have hleads := targetLeads_of_leads hlinked ih hrow hreference
      rw [hrole, htarget] at hleads
      generalize hdata : ReferenceRow.data _ = data at hleads hclass
      cases hleads with
      | instantiation hclass' _ _ harguments hfound =>
          obtain rfl := Option.some.inj (hclass'.symm.trans hclass)
          rw [← hlinked.instantiations] at hfound
          obtain rfl := Option.some.inj (hfound.symm.trans hinstantiation)
          exact leads_of_instLeads hlinked harguments hlisted hused hnumber

theorem covers_of_linked (hlinked : graph.Linked rows links) : Covers rows graph where
  fields := hlinked.fields.size
  methods := hlinked.methods.size
  types := hlinked.types.size
  genericParameters := hlinked.genericParameters.size
  methodSpecs := hlinked.methodSpecs.size
  parameters := by
    intro index row method hrow hmethod
    obtain ⟨range, hrange, hparameters⟩ := (hlinked.methods.related hrow hmethod).parameters
    obtain ⟨listed, hlisted, hleads⟩ := exists_values_of_range hrange hparameters
    exact ⟨listed, hlisted, hleads.length_eq⟩
  interfaces := by
    intro index row type hrow htype
    obtain ⟨listed, hlisted, hleads⟩ :=
      RangeLeads.exists_rows (hlinked.types.related hrow htype).interfaces
    exact ⟨listed, hlisted, hleads.length_eq⟩
  constraints := by
    intro index row parameter hrow hparameter
    obtain ⟨listed, hlisted, hleads⟩ :=
      RangeLeads.exists_rows (hlinked.genericParameters.related hrow hparameter).constraints
    exact ⟨listed, hlisted, hleads.length_eq⟩
  specs := by
    intro index spec row hrow hspec
    obtain ⟨_, _, _, _, hclass, hmethod, hfound⟩ := hlinked.methodSpecs.related hrow hspec
    obtain ⟨classRows, hclassRows, hclass⟩ := InstLeads.exists_rows hlinked.valid hclass
    obtain ⟨methodRows, hmethodRows, hmethod⟩ := InstLeads.exists_rows hlinked.valid hmethod
    rw [← hlinked.instantiations] at hfound
    exact ⟨_, classRows, methodRows, hfound, hclassRows, hmethodRows, hclass.length_eq,
      hmethod.length_eq⟩

theorem exists_argumentTrees (hlinked : graph.Linked rows links) {index : Int}
    {numbers : List Nat} (h : InstLeads rows links index numbers) :
    ∃ trees, rows.ArgumentsUnfold index trees ∧ List.Forall₂ graph.Unfolds numbers trees := by
  obtain ⟨listed, hlisted, hleads⟩ := InstLeads.exists_rows hlinked.valid h
  obtain ⟨trees, hrows, hnumbers⟩ := exists_trees
    (sameTrees_of_leads hleads fun number _ index h => sameTree_of_leads hlinked h)
  exact ⟨trees, ⟨listed, hlisted, hrows⟩, hnumbers⟩

theorem eq_iff_argumentTrees_eq (hlinked : graph.Linked rows links) {i j : Int}
    {ms ns : List Nat} (hms : InstLeads rows links i ms) (hns : InstLeads rows links j ns) :
    ms = ns ↔ ∃ trees, rows.ArgumentsUnfold i trees ∧ rows.ArgumentsUnfold j trees := by
  obtain ⟨trees, hi, hmtrees⟩ := exists_argumentTrees hlinked hms
  obtain ⟨trees', hj, hntrees⟩ := exists_argumentTrees hlinked hns
  constructor
  · rintro rfl
    obtain rfl := trees_unique hmtrees hntrees fun _ _ _ _ => TypeGraph.Unfolds.unique
    exact ⟨trees, hi, hj⟩
  · rintro ⟨shared, hleft, hright⟩
    obtain rfl := hi.unique hleft
    obtain rfl := hj.unique hright
    exact eq_of_trees hmtrees hntrees fun m _ n tree => eq_of_unfolds hlinked

/-- Rows that lead to references lead to the same one exactly if they stand for the same tree. -/
theorem eq_iff_tree_eq (hlinked : graph.Linked rows links) {i j : Int} {m n : Nat}
    (hm : Leads rows links i m) (hn : Leads rows links j n) :
    m = n ↔ ∃ tree, rows.Unfolds i tree ∧ rows.Unfolds j tree := by
  obtain ⟨tree, hi, hmtree⟩ := sameTree_of_leads hlinked hm
  obtain ⟨tree', hj, hntree⟩ := sameTree_of_leads hlinked hn
  constructor
  · rintro rfl
    obtain rfl := hmtree.unique hntree
    exact ⟨tree, hi, hj⟩
  · rintro ⟨shared, hleft, hright⟩
    obtain rfl := hi.unique hleft
    obtain rfl := hj.unique hright
    exact eq_of_unfolds hlinked hmtree hntree

theorem spec_eq_iff (hlinked : graph.Linked rows links) {i j m n : Nat}
    {row row' : MethodSpecRow} (hrow : rows.methodSpecs[i]? = some row)
    (hrow' : rows.methodSpecs[j]? = some row') (hm : graph.methodSpecs[i]? = some m)
    (hn : graph.methodSpecs[j]? = some n) :
    m = n ↔ row.method = row'.method ∧
      (∃ trees, rows.ArgumentsUnfold row.classArguments trees ∧
        rows.ArgumentsUnfold row'.classArguments trees) ∧
      ∃ trees, rows.ArgumentsUnfold row.methodArguments trees ∧
        rows.ArgumentsUnfold row'.methodArguments trees := by
  obtain ⟨method, classes, arguments, hmethod, hclasses, harguments, hfound⟩ :=
    hlinked.methodSpecs.related hrow hm
  obtain ⟨method', classes', arguments', hmethod', hclasses', harguments', hfound'⟩ :=
    hlinked.methodSpecs.related hrow' hn
  rw [← eq_iff_argumentTrees_eq hlinked hclasses hclasses',
    ← eq_iff_argumentTrees_eq hlinked harguments harguments']
  rw [(Bounds.index_eq_ok_iff.mp hmethod).1, (Bounds.index_eq_ok_iff.mp hmethod').1,
    Int.natCast_inj]
  constructor
  · rintro rfl
    have hsame := Option.some.inj (hfound.symm.trans hfound')
    simp only [Instantiation.mk.injEq, true_and] at hsame
    exact hsame
  · rintro ⟨rfl, rfl, rfl⟩
    exact links.instantiations.number_inj hfound hfound'

/-- Interning is exact and canonical in every graph that is built. -/
theorem canonical_of_build {metadata : Metadata}
    (h : (TypeGraph.build metadata).outcome.1 = .ok graph) : Canonical metadata.rows graph := by
  obtain ⟨links, hlinked⟩ := exists_linked_of_build h
  refine ⟨covers_of_linked hlinked, ?_, ?_, ?_, spec_eq_iff hlinked⟩
  · intro index number hresolved
    obtain ⟨tree, hindex, hnumber⟩ :=
      sameTree_of_leads hlinked (leads_of_resolved hlinked hresolved)
    exact ⟨tree, hnumber, fun other => ⟨fun hother => hother.unique hindex, fun h => h ▸ hindex⟩⟩
  · intro i j m n hm hn
    exact eq_iff_tree_eq hlinked (leads_of_resolved hlinked hm) (leads_of_resolved hlinked hn)
  · intro index row hrow
    obtain ⟨spec, hspec⟩ := hlinked.methodSpecs.exists_value hrow
    obtain ⟨_, _, _, _, hclasses, harguments, _⟩ := hlinked.methodSpecs.related hrow hspec
    obtain ⟨classTrees, hclassTrees, -⟩ := exists_argumentTrees hlinked hclasses
    obtain ⟨methodTrees, hmethodTrees, -⟩ := exists_argumentTrees hlinked harguments
    exact ⟨classTrees, methodTrees,
      fun other => ⟨fun hother => hother.unique hclassTrees, fun h => h ▸ hclassTrees⟩,
      fun other => ⟨fun hother => hother.unique hmethodTrees, fun h => h ▸ hmethodTrees⟩⟩

theorem canonical_smallBlob : ∃ graph, (TypeGraph.build smallBlob).outcome.1 = .ok graph ∧
    graph.fields.toList.map FieldDefinition.type = [1, 1, 2, 2] ∧
      Canonical smallBlob.rows graph := by
  exact ⟨smallGraph, build_smallBlob, rfl, canonical_of_build build_smallBlob⟩

end TypeAtlas
