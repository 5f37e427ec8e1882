import TypeAtlas.Proofs.Linking.Unfolding

namespace TypeAtlas

open Links TypeGraph

/-- A value stands in the range of a table with a start and a count. -/
def Lists {α : Type} (values : Array α) (start count : Int) (value : α) : Prop :=
  ∃ i : Nat, (i : Int) < count ∧ valueAt? values (start + i) = some value

namespace Rows

/-- A row of the type references is an argument of a list. The index -1 stands for no list. -/
def ListsArgument (rows : Rows) (list index : Int) : Prop :=
  ∃ inst, valueAt? rows.genericInsts list = some inst ∧
    Lists rows.genericArguments inst.argumentStart inst.argumentCount index

/-- A row of the type references refers to another one: to that of its elements, or to an argument
of its generic class. -/
inductive Refers (rows : Rows) (index : Int) : Int → Prop
  | element {row : ReferenceRow} (hrow : valueAt? rows.references index = some row)
      (hrole : Kind.role row.kind = .element) : Refers rows index row.data
  | argument {row : ReferenceRow} {classRow : GenericClassRow} {argument : Int}
      (hrow : valueAt? rows.references index = some row)
      (hrole : Kind.role row.kind = .instantiation)
      (hclass : valueAt? rows.genericClasses row.data = some classRow)
      (hargument : rows.ListsArgument classRow.arguments argument) : Refers rows index argument

/-- A row of the type references is the type of a field, of a return value or of a parameter, or it
is an interface, a constraint or an argument of a method spec. -/
inductive Uses (rows : Rows) : Int → Prop
  | field {row : FieldRow} (hrow : row ∈ rows.fields) : Uses rows row.type
  | returned {row : MethodRow} (hrow : row ∈ rows.methods) : Uses rows row.returnType
  | parameter {row : MethodRow} {parameter : ParameterRow} (hrow : row ∈ rows.methods)
      (hparameter : Lists rows.parameters row.parameterStart row.parameterCount parameter) :
      Uses rows parameter.type
  | interface {row : TypeRow} {index : Int} (hrow : row ∈ rows.types)
      (hindex : Lists rows.interfaces row.interfaceStart row.interfaceCount index) :
      Uses rows index
  | constraint {row : GenericParameterRow} {index : Int} (hrow : row ∈ rows.genericParameters)
      (hindex : Lists rows.constraints row.constraintStart row.constraintCount index) :
      Uses rows index
  | classArgument {row : MethodSpecRow} {index : Int} (hrow : row ∈ rows.methodSpecs)
      (hindex : rows.ListsArgument row.classArguments index) : Uses rows index
  | methodArgument {row : MethodSpecRow} {index : Int} (hrow : row ∈ rows.methodSpecs)
      (hindex : rows.ListsArgument row.methodArguments index) : Uses rows index

/-- A row leads, in any number of steps, to one that lies on a cycle. -/
def LeadsToCycle (rows : Rows) (index : Int) : Prop :=
  ∃ other, Relation.ReflTransGen rows.Refers index other ∧ Relation.TransGen rows.Refers other other

end Rows

section Trees

variable {rows : Rows} {index other : Int} {tree : TypeTree}

theorem mem_of_lists {α : Type} {values : Array α} {start count : Int} {value : α} {listed : List α}
    (h : Lists values start count value) (hlisted : valuesAt? values start count = some listed) :
    value ∈ listed := by
  obtain ⟨i, hi, hvalue⟩ := h
  have hmem : i ∈ List.range count.toNat := List.mem_range.mpr (by omega)
  obtain ⟨found, hfound, hlook⟩ := exists_of_mem_of_forall₂ (mapM_eq_some_iff.mp hlisted) hmem
  obtain rfl := Option.some.inj (hlook.symm.trans hvalue)
  exact hfound

theorem mem_of_listsArgument {list : Int} {listed : List Int} (h : rows.ListsArgument list index)
    (hlisted : rows.argumentRows? list = some listed) : index ∈ listed := by
  obtain ⟨inst, hinst, hlists⟩ := h
  have hsome : list ≠ Bounds.noIndex := by
    rintro rfl
    cases hinst
  rw [Rows.argumentRows?, if_neg hsome, hinst] at hlisted
  exact mem_of_lists hlists hlisted

theorem Rows.Unfolds.eq_element {row : ReferenceRow} (h : rows.Unfolds index tree)
    (hrow : valueAt? rows.references index = some row) (hrole : Kind.role row.kind = .element) :
    ∃ inner, tree = .element row.head inner ∧ rows.Unfolds row.data inner := by
  obtain ⟨hrow', hdata⟩ := h
  obtain rfl := Option.some.inj (hrow.symm.trans hrow')
  rw [hrole] at hdata
  cases hdata with
  | element h => exact ⟨_, rfl, h⟩

theorem Rows.Unfolds.eq_instantiation {row : ReferenceRow} {classRow : GenericClassRow}
    {argument : Int} (h : rows.Unfolds index tree)
    (hrow : valueAt? rows.references index = some row)
    (hrole : Kind.role row.kind = .instantiation)
    (hclass : valueAt? rows.genericClasses row.data = some classRow)
    (hargument : rows.ListsArgument classRow.arguments argument) :
    ∃ trees, ∃ part ∈ trees, tree = .instantiation row.head classRow.definition trees ∧
      rows.Unfolds argument part := by
  obtain ⟨hrow', hdata⟩ := h
  obtain rfl := Option.some.inj (hrow.symm.trans hrow')
  rw [hrole] at hdata
  cases hdata with
  | instantiation hclass' hlisted htrees =>
      obtain rfl := Option.some.inj (hclass.symm.trans hclass')
      obtain ⟨part, hmem, hpart⟩ :=
        exists_of_mem_of_forall₂ htrees (mem_of_listsArgument hargument hlisted)
      exact ⟨_, part, hmem, rfl, hpart⟩

theorem exists_smaller_tree (h : rows.Unfolds index tree) (hrefers : rows.Refers index other) :
    ∃ part, rows.Unfolds other part ∧ sizeOf part < sizeOf tree := by
  cases hrefers with
  | element hrow hrole =>
      obtain ⟨inner, rfl, hinner⟩ := h.eq_element hrow hrole
      exact ⟨inner, hinner, by simp only [TypeTree.element.sizeOf_spec]; omega⟩
  | argument hrow hrole hclass hargument =>
      obtain ⟨trees, part, hmem, rfl, hpart⟩ := h.eq_instantiation hrow hrole hclass hargument
      have hlt := List.sizeOf_lt_of_mem hmem
      exact ⟨part, hpart, by simp only [TypeTree.instantiation.sizeOf_spec]; omega⟩

theorem exists_smaller_tree_of_transGen (h : rows.Unfolds index tree)
    (hrefers : Relation.TransGen rows.Refers index other) :
    ∃ part, rows.Unfolds other part ∧ sizeOf part < sizeOf tree := by
  induction hrefers with
  | single hrefers => exact exists_smaller_tree h hrefers
  | tail _ hrefers ih =>
      obtain ⟨middle, hmiddle, hlt⟩ := ih
      obtain ⟨part, hpart, hlt'⟩ := exists_smaller_tree hmiddle hrefers
      exact ⟨part, hpart, Nat.lt_trans hlt' hlt⟩

/-- A row that leads to a cycle stands for no tree: on the cycle its tree would be a part of
itself. -/
theorem not_unfolds_of_leadsToCycle (hcycle : rows.LeadsToCycle index) :
    ¬∃ tree, rows.Unfolds index tree := by
  rintro ⟨tree, htree⟩
  obtain ⟨other, hreach, hback⟩ := hcycle
  have hother : ∃ part, rows.Unfolds other part := by
    rcases Relation.reflTransGen_iff_eq_or_transGen.mp hreach with rfl | hreach
    · exact ⟨tree, htree⟩
    · obtain ⟨part, hpart, -⟩ := exists_smaller_tree_of_transGen htree hreach
      exact ⟨part, hpart⟩
  obtain ⟨part, hpart⟩ := hother
  obtain ⟨smaller, hsmaller, hlt⟩ := exists_smaller_tree_of_transGen hpart hback
  obtain rfl := hsmaller.unique hpart
  exact Nat.lt_irrefl _ hlt

end Trees

section Linked

variable {rows : Rows} {links : Links} {graph : TypeGraph} {index other : Int}

theorem exists_leads_of_instLeads (hvalid : Valid rows links) {list : Int} {numbers : List Nat}
    (h : InstLeads rows links list numbers) (hindex : rows.ListsArgument list index) :
    ∃ number, Leads rows links index number := by
  obtain ⟨listed, hlisted, hleads⟩ := InstLeads.exists_rows hvalid h
  obtain ⟨number, -, hlead⟩ :=
    exists_of_mem_of_forall₂ hleads (mem_of_listsArgument hindex hlisted)
  exact ⟨number, hlead⟩

theorem exists_leads_of_rangeLeads {indices : Array Int} {start count : Int} {table : Table}
    {site : Site} {numbers : List Nat}
    (h : RangeLeads rows links indices (Bounds.range rows start count table site) numbers)
    (hindex : Lists indices start count index) : ∃ number, Leads rows links index number := by
  obtain ⟨listed, hlisted, hleads⟩ := RangeLeads.exists_rows h
  obtain ⟨number, -, hlead⟩ := exists_of_mem_of_forall₂ hleads (mem_of_lists hindex hlisted)
  exact ⟨number, hlead⟩

theorem exists_leads_of_uses (hlinked : graph.Linked rows links) (h : rows.Uses index) :
    ∃ number, Leads rows links index number := by
  cases h with
  | field hrow =>
      obtain ⟨i, hi⟩ := Array.mem_iff_getElem?.mp hrow
      obtain ⟨field, hfield⟩ := hlinked.fields.exists_value hi
      exact ⟨_, (hlinked.fields.related hi hfield).type⟩
  | returned hrow =>
      obtain ⟨i, hi⟩ := Array.mem_iff_getElem?.mp hrow
      obtain ⟨method, hmethod⟩ := hlinked.methods.exists_value hi
      exact ⟨_, (hlinked.methods.related hi hmethod).returnType⟩
  | parameter hrow hparameter =>
      obtain ⟨i, hi⟩ := Array.mem_iff_getElem?.mp hrow
      obtain ⟨method, hmethod⟩ := hlinked.methods.exists_value hi
      obtain ⟨range, hrange, hparameters⟩ := (hlinked.methods.related hi hmethod).parameters
      obtain ⟨listed, hlisted, hmade⟩ := exists_values_of_range hrange hparameters
      obtain ⟨_, -, hlead⟩ := exists_of_mem_of_forall₂ hmade (mem_of_lists hparameter hlisted)
      exact ⟨_, hlead.type⟩
  | interface hrow hindex =>
      obtain ⟨i, hi⟩ := Array.mem_iff_getElem?.mp hrow
      obtain ⟨type, htype⟩ := hlinked.types.exists_value hi
      exact exists_leads_of_rangeLeads (hlinked.types.related hi htype).interfaces hindex
  | constraint hrow hindex =>
      obtain ⟨i, hi⟩ := Array.mem_iff_getElem?.mp hrow
      obtain ⟨parameter, hparameter⟩ := hlinked.genericParameters.exists_value hi
      exact exists_leads_of_rangeLeads
        (hlinked.genericParameters.related hi hparameter).constraints hindex
  | classArgument hrow hindex =>
      obtain ⟨i, hi⟩ := Array.mem_iff_getElem?.mp hrow
      obtain ⟨spec, hspec⟩ := hlinked.methodSpecs.exists_value hi
      obtain ⟨_, _, _, _, hclass, _, _⟩ := hlinked.methodSpecs.related hi hspec
      exact exists_leads_of_instLeads hlinked.valid hclass hindex
  | methodArgument hrow hindex =>
      obtain ⟨i, hi⟩ := Array.mem_iff_getElem?.mp hrow
      obtain ⟨spec, hspec⟩ := hlinked.methodSpecs.exists_value hi
      obtain ⟨_, _, _, _, _, hmethod, _⟩ := hlinked.methodSpecs.related hi hspec
      exact exists_leads_of_instLeads hlinked.valid hmethod hindex

theorem exists_leads_of_refers (hvalid : Valid rows links) {number : Nat}
    (h : Leads rows links index number) (hrefers : rows.Refers index other) :
    ∃ inner, Leads rows links other inner := by
  obtain ⟨i, rfl, -, hnumber⟩ := h
  obtain ⟨row, target, hrow, -, hleads⟩ := hvalid.linked hnumber
  cases hrefers with
  | element hrow' hrole =>
      obtain rfl := Option.some.inj (hrow.symm.trans hrow')
      rw [hrole] at hleads
      cases hleads with
      | element hleads => exact ⟨_, hleads⟩
  | argument hrow' hrole hclass hargument =>
      obtain rfl := Option.some.inj (hrow.symm.trans hrow')
      rw [hrole] at hleads
      generalize ReferenceRow.data _ = data at hleads hclass
      cases hleads with
      | instantiation hclass' _ _ harguments _ =>
          obtain rfl := Option.some.inj (hclass'.symm.trans hclass)
          exact exists_leads_of_instLeads hvalid harguments hargument

theorem exists_leads_of_reflTransGen (hvalid : Valid rows links) {number : Nat}
    (h : Leads rows links index number) (hreach : Relation.ReflTransGen rows.Refers index other) :
    ∃ inner, Leads rows links other inner := by
  induction hreach with
  | refl => exact ⟨number, h⟩
  | tail _ hrefers ih =>
      obtain ⟨inner, hinner⟩ := ih
      exact exists_leads_of_refers hvalid hinner hrefers

theorem exists_tree_of_uses (hlinked : graph.Linked rows links) (h : rows.Uses index) :
    ∃ tree, rows.Unfolds index tree := by
  obtain ⟨number, hleads⟩ := exists_leads_of_uses hlinked h
  obtain ⟨tree, htree, -⟩ := sameTree_of_leads hlinked hleads
  exact ⟨tree, htree⟩

/-- A blob has no graph if a row that one of its definitions uses leads to a cycle. -/
theorem not_linked_of_leadsToCycle (huses : rows.Uses index) (hcycle : rows.LeadsToCycle index) :
    ¬graph.Linked rows links :=
  fun hlinked => not_unfolds_of_leadsToCycle hcycle (exists_tree_of_uses hlinked huses)

end Linked

end TypeAtlas
