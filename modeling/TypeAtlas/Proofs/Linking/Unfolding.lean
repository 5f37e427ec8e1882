import TypeAtlas.Proofs.Linking.Graph

namespace TypeAtlas

open Links

/-- What a reference says apart from what it refers to. -/
structure Head where
  kind : Nat
  byref : Bool
  rank : Nat

/-- The head of a row. The lowest bit of its flags says whether it is passed by reference, and the
bits from the third one on are the number of dimensions. -/
def ReferenceRow.head (row : ReferenceRow) : Head := ⟨row.kind, row.flags % 2 == 1, row.flags / 4⟩

/-- The head of a reference. -/
def TypeReference.head (reference : TypeReference) : Head :=
  ⟨reference.kind, reference.byref, reference.rank⟩

/-- A type reference with everything that it refers to in place. -/
inductive TypeTree
  | element (head : Head) (inner : TypeTree)
  | definition (head : Head) (type : Int)
  | parameter (head : Head) (parameter : Int)
  | instantiation (head : Head) (type : Int) (arguments : List TypeTree)
  | plain (head : Head)

def TypeTree.head : TypeTree → Head
  | element head _ | definition head _ | parameter head _ | instantiation head _ _ | plain head =>
      head

/-- The value at an index; there is none at a negative one. -/
def valueAt? {α : Type} (values : Array α) : Int → Option α
  | .ofNat n => values[n]?
  | .negSucc _ => none

/-- The values of a range, if it lies in its table. -/
def valuesAt? {α : Type} (values : Array α) (start count : Int) : Option (List α) :=
  (List.range count.toNat).mapM fun i : Nat => valueAt? values (start + i)

/-- The rows that an argument list names. The index -1 stands for no arguments. -/
def Rows.argumentRows? (rows : Rows) (index : Int) : Option (List Int) :=
  if index = Bounds.noIndex then some []
  else do
    let row ← valueAt? rows.genericInsts index
    valuesAt? rows.genericArguments row.argumentStart row.argumentCount

mutual

/-- A row of the type references stands for a tree. A row that leads back to itself, or out of its
tables, stands for none. -/
inductive Rows.Unfolds (rows : Rows) : Int → TypeTree → Prop
  | row {index : Int} {row : ReferenceRow} {tree : TypeTree}
      (hrow : valueAt? rows.references index = some row)
      (h : Rows.DataUnfolds rows row.head (Kind.role row.kind) row.data tree) :
      Rows.Unfolds rows index tree

/-- The data of a row with some head stands for a tree, by the role of the row. -/
inductive Rows.DataUnfolds (rows : Rows) : Head → Role → Int → TypeTree → Prop
  | element {head : Head} {data : Int} {inner : TypeTree} (h : Rows.Unfolds rows data inner) :
      Rows.DataUnfolds rows head .element data (.element head inner)
  | definition {head : Head} {data : Int} :
      Rows.DataUnfolds rows head .definition data (.definition head data)
  | parameter {head : Head} {data : Int} :
      Rows.DataUnfolds rows head .parameter data (.parameter head data)
  | instantiation {head : Head} {data : Int} {row : GenericClassRow} {listed : List Int}
      {trees : List TypeTree} (hrow : valueAt? rows.genericClasses data = some row)
      (hlisted : rows.argumentRows? row.arguments = some listed)
      (h : List.Forall₂ (Rows.Unfolds rows) listed trees) :
      Rows.DataUnfolds rows head .instantiation data (.instantiation head row.definition trees)
  | plain {head : Head} {data : Int} : Rows.DataUnfolds rows head .plain data (.plain head)

end

mutual

/-- A reference of a graph stands for a tree. -/
inductive TypeGraph.Unfolds (graph : TypeGraph) : Nat → TypeTree → Prop
  | reference {number : Nat} {reference : TypeReference} {tree : TypeTree}
      (hreference : graph.references[number]? = some reference)
      (h : TypeGraph.TargetUnfolds graph reference.head reference.target tree) :
      TypeGraph.Unfolds graph number tree

/-- The target of a reference with some head stands for a tree. -/
inductive TypeGraph.TargetUnfolds (graph : TypeGraph) : Head → Target → TypeTree → Prop
  | element {head : Head} {number : Nat} {inner : TypeTree}
      (h : TypeGraph.Unfolds graph number inner) :
      TypeGraph.TargetUnfolds graph head (.element number) (.element head inner)
  | definition {head : Head} {type : Nat} :
      TypeGraph.TargetUnfolds graph head (.definition type) (.definition head type)
  | parameter {head : Head} {parameter : Nat} :
      TypeGraph.TargetUnfolds graph head (.parameter parameter) (.parameter head parameter)
  | instantiation {head : Head} {number : Nat} {instantiation : Instantiation}
      {trees : List TypeTree} (hnumber : graph.instantiations[number]? = some instantiation)
      (h : List.Forall₂ (TypeGraph.Unfolds graph) instantiation.arguments trees) :
      TypeGraph.TargetUnfolds graph head (.instantiation number)
        (.instantiation head instantiation.definition trees)
  | plain {head : Head} : TypeGraph.TargetUnfolds graph head .nothing (.plain head)

end

/-- An argument list stands for some trees. -/
def Rows.ArgumentsUnfold (rows : Rows) (index : Int) (trees : List TypeTree) : Prop :=
  ∃ listed, rows.argumentRows? index = some listed ∧ List.Forall₂ rows.Unfolds listed trees

section Unique

theorem trees_unique {α : Type} {stands : α → TypeTree → Prop} {items : List α}
    {trees trees' : List TypeTree} (h : List.Forall₂ stands items trees)
    (h' : List.Forall₂ stands items trees')
    (heq : ∀ tree ∈ trees, ∀ item tree', stands item tree → stands item tree' → tree = tree') :
    trees = trees' := by
  induction h generalizing trees' with
  | nil =>
      cases h'
      rfl
  | @cons item tree items trees hfirst _ ih =>
      cases h' with
      | cons hfirst' hrest' =>
          rw [heq tree List.mem_cons_self item _ hfirst hfirst',
            ih hrest' fun other hother => heq other (List.mem_cons_of_mem _ hother)]

variable {rows : Rows} {graph : TypeGraph}

theorem Rows.Unfolds.unique {index : Int} {tree tree' : TypeTree} (h : rows.Unfolds index tree)
    (h' : rows.Unfolds index tree') : tree = tree' := by
  induction hsize : sizeOf tree using Nat.strongRecOn generalizing index tree tree' with
  | ind size ih =>
      obtain ⟨hrow, hdata⟩ := h
      obtain ⟨hrow', hdata'⟩ := h'
      obtain rfl := Option.some.inj (hrow.symm.trans hrow')
      generalize Kind.role _ = role at hdata hdata'
      generalize ReferenceRow.data _ = data at hdata hdata'
      cases hdata with
      | element h =>
          cases hdata' with
          | element h' =>
              simp only [TypeTree.element.sizeOf_spec] at hsize
              rw [ih _ (by omega) h h' rfl]
      | definition =>
          cases hdata'
          rfl
      | parameter =>
          cases hdata'
          rfl
      | @instantiation _ _ row listed trees hclass hlisted h =>
          cases hdata' with
          | instantiation hclass' hlisted' h' =>
              obtain rfl := Option.some.inj (hclass.symm.trans hclass')
              obtain rfl := Option.some.inj (hlisted.symm.trans hlisted')
              simp only [TypeTree.instantiation.sizeOf_spec] at hsize
              rw [trees_unique h h' fun inner hinner index tree' hleft hright => ?_]
              have hlt := List.sizeOf_lt_of_mem hinner
              exact ih _ (by omega) hleft hright rfl
      | plain =>
          cases hdata'
          rfl

theorem Rows.ArgumentsUnfold.unique {index : Int} {trees trees' : List TypeTree}
    (h : rows.ArgumentsUnfold index trees) (h' : rows.ArgumentsUnfold index trees') :
    trees = trees' := by
  obtain ⟨listed, hlisted, hunfolds⟩ := h
  obtain ⟨listed', hlisted', hunfolds'⟩ := h'
  obtain rfl := Option.some.inj (hlisted.symm.trans hlisted')
  exact trees_unique hunfolds hunfolds' fun _ _ _ _ => Rows.Unfolds.unique

theorem TypeGraph.Unfolds.unique {number : Nat} {tree tree' : TypeTree}
    (h : graph.Unfolds number tree) (h' : graph.Unfolds number tree') : tree = tree' := by
  induction hsize : sizeOf tree using Nat.strongRecOn generalizing number tree tree' with
  | ind size ih =>
      obtain ⟨hreference, htarget⟩ := h
      obtain ⟨hreference', htarget'⟩ := h'
      obtain rfl := Option.some.inj (hreference.symm.trans hreference')
      generalize TypeReference.target _ = target at htarget htarget'
      cases htarget with
      | element h =>
          cases htarget' with
          | element h' =>
              simp only [TypeTree.element.sizeOf_spec] at hsize
              rw [ih _ (by omega) h h' rfl]
      | definition =>
          cases htarget'
          rfl
      | parameter =>
          cases htarget'
          rfl
      | instantiation hnumber h =>
          cases htarget' with
          | instantiation hnumber' h' =>
              obtain rfl := Option.some.inj (hnumber.symm.trans hnumber')
              simp only [TypeTree.instantiation.sizeOf_spec] at hsize
              rw [trees_unique h h' fun inner hinner number tree' hleft hright => ?_]
              have hlt := List.sizeOf_lt_of_mem hinner
              exact ih _ (by omega) hleft hright rfl
      | plain =>
          cases htarget'
          rfl

end Unique

section Values

variable {α β γ : Type}

theorem range_eq_map {rows : Rows} {start count : Int} {table : Table} {site : Site}
    {range : List Nat} (h : Bounds.range rows start count table site = .ok range) :
    range.map (fun i : Nat => (i : Int)) =
      (List.range count.toNat).map fun i : Nat => start + (i : Int) := by
  unfold Bounds.range at h
  split at h
  · next hcount =>
      obtain rfl := Except.ok.inj h
      simp [hcount]
  · split at h
    · cases h
    · next hstart =>
        obtain rfl := Except.ok.inj h
        refine List.ext_getElem (by simp) ?_
        intro i _ _
        simp only [List.getElem_map, List.getElem_range', List.getElem_range]
        omega

theorem valuesAt?_of_range {rows : Rows} {start count : Int} {table : Table} {site : Site}
    {range : List Nat} (values : Array α)
    (h : Bounds.range rows start count table site = .ok range) :
    valuesAt? values start count = range.mapM fun i => values[i]? := by
  calc valuesAt? values start count
      = ((List.range count.toNat).map fun i : Nat => start + (i : Int)).mapM
          (valueAt? values) := by
        rw [valuesAt?, List.mapM_map]
        rfl
    _ = (range.map fun i : Nat => (i : Int)).mapM (valueAt? values) := by rw [range_eq_map h]
    _ = range.mapM fun i => values[i]? := by
        rw [List.mapM_map]
        rfl

theorem exists_values_of_range {rows : Rows} {start count : Int} {table : Table} {site : Site}
    {range : List Nat} {values : Array α} {relation : α → β → Prop} {made : List β}
    (h : Bounds.range rows start count table site = .ok range)
    (hmade : List.Forall₂ (fun i result => ∃ value, values[i]? = some value ∧
      relation value result) range made) :
    ∃ listed, valuesAt? values start count = some listed ∧ List.Forall₂ relation listed made := by
  rw [valuesAt?_of_range values h]
  clear h
  induction hmade with
  | nil => exact ⟨[], rfl, .nil⟩
  | cons hfirst _ ih =>
      obtain ⟨value, hvalue, hrelation⟩ := hfirst
      obtain ⟨listed, hlisted, hrest⟩ := ih
      exact ⟨value :: listed, by simp [List.mapM_cons, hvalue, hlisted], .cons hrelation hrest⟩

end Values

section Listed

variable {rows : Rows} {links : Links}

theorem RangeLeads.exists_rows {indices : Array Int} {start count : Int} {table : Table}
    {site : Site} {numbers : List Nat}
    (h : TypeGraph.RangeLeads rows links indices (Bounds.range rows start count table site)
      numbers) :
    ∃ listed, valuesAt? indices start count = some listed ∧
      List.Forall₂ (Leads rows links) listed numbers := by
  obtain ⟨range, hrange, hleads⟩ := h
  exact exists_values_of_range hrange hleads

theorem InstLeads.exists_rows (hvalid : Valid rows links) {index : Int} {numbers : List Nat}
    (h : InstLeads rows links index numbers) :
    ∃ listed, rows.argumentRows? index = some listed ∧
      List.Forall₂ (Leads rows links) listed numbers := by
  rcases h with ⟨rfl, rfl⟩ | ⟨list, rfl, hlt, harguments⟩
  · exact ⟨[], rfl, .nil⟩
  · obtain ⟨row, range, hrow, hrange, hleads⟩ := hvalid.arguments harguments
    obtain ⟨listed, hlisted, hleads⟩ := exists_values_of_range hrange hleads
    refine ⟨listed, ?_, hleads⟩
    have hsome : (list : Int) ≠ Bounds.noIndex := by
      simp only [Bounds.noIndex]
      omega
    have hvalue : valueAt? rows.genericInsts (list : Int) = some row := hrow
    rw [Rows.argumentRows?, if_neg hsome, hvalue]
    exact hlisted

end Listed

section Trees

variable {rows : Rows} {links : Links} {graph : TypeGraph}

/-- A row and a reference that stand for the same tree. -/
def SameTree (rows : Rows) (graph : TypeGraph) (index : Int) (number : Nat) : Prop :=
  ∃ tree, rows.Unfolds index tree ∧ graph.Unfolds number tree

theorem exists_trees {listed : List Int} {numbers : List Nat}
    (h : List.Forall₂ (SameTree rows graph) listed numbers) :
    ∃ trees, List.Forall₂ rows.Unfolds listed trees ∧
      List.Forall₂ graph.Unfolds numbers trees := by
  induction h with
  | nil => exact ⟨[], .nil, .nil⟩
  | cons hfirst _ ih =>
      obtain ⟨tree, hrow, hnumber⟩ := hfirst
      obtain ⟨trees, hrows, hnumbers⟩ := ih
      exact ⟨tree :: trees, .cons hrow hrows, .cons hnumber hnumbers⟩

theorem sameTrees_of_leads {listed : List Int} {numbers : List Nat}
    (h : List.Forall₂ (Leads rows links) listed numbers)
    (htree : ∀ number ∈ numbers, ∀ index, Leads rows links index number →
      SameTree rows graph index number) :
    List.Forall₂ (SameTree rows graph) listed numbers := by
  induction h with
  | nil => exact .nil
  | @cons index number listed numbers hleads _ ih =>
      refine .cons (htree number List.mem_cons_self index hleads) (ih ?_)
      exact fun other hother => htree other (List.mem_cons_of_mem _ hother)

/-- A row that has been linked stands for the same tree as its reference. -/
theorem sameTree_of_leads (hlinked : graph.Linked rows links) {index : Int} {number : Nat}
    (h : Leads rows links index number) : SameTree rows graph index number := by
  -- Rows may lead back to each other, but a reference refers to smaller numbers only.
  induction number using Nat.strongRecOn generalizing index with
  | ind number ih =>
      obtain ⟨i, rfl, -, hnumber⟩ := h
      obtain ⟨row, target, hrow, hreference, htarget⟩ := hlinked.valid.linked hnumber
      have hfits := hlinked.valid.references hreference
      rw [← hlinked.references] at hreference
      have hvalue : valueAt? rows.references (i : Int) = some row := hrow
      suffices h : ∃ tree, rows.DataUnfolds row.head (Kind.role row.kind) row.data tree ∧
          graph.TargetUnfolds row.head target tree by
        obtain ⟨tree, hleft, hright⟩ := h
        exact ⟨tree, .row hvalue hleft, .reference hreference hright⟩
      simp only [ReferenceRow.toReference] at hfits
      generalize Kind.role row.kind = role at htarget hfits ⊢
      generalize row.data = data at htarget ⊢
      cases htarget with
      | element h =>
          cases hfits with
          | element hlt =>
              obtain ⟨tree, htree, hinner⟩ := ih _ hlt h
              exact ⟨_, .element htree, .element hinner⟩
      | definition h => exact ⟨_, .definition, .definition⟩
      | parameter h => exact ⟨_, .parameter, .parameter⟩
      | @instantiation genericClass definition found classRow numbers hrow hdefinition _
          harguments hfound =>
          cases hfits with
          | instantiation hindex _ _ hsmaller =>
              obtain rfl := Option.some.inj (hindex.symm.trans hfound)
              rw [← hlinked.instantiations] at hfound
              obtain ⟨listed, hlisted, hleads⟩ := InstLeads.exists_rows hlinked.valid harguments
              obtain ⟨trees, hrows, hnumbers⟩ := exists_trees
                (sameTrees_of_leads hleads fun number hnumber index h =>
                  ih number (hsmaller number hnumber) h)
              have hunfolds : graph.TargetUnfolds row.head (.instantiation found)
                  (.instantiation row.head definition trees) := .instantiation hfound hnumbers
              rw [← hdefinition] at hunfolds
              exact ⟨_, .instantiation hrow hlisted hrows, hunfolds⟩
      | plain => exact ⟨_, .plain, .plain⟩

theorem eq_of_trees {ms ns : List Nat} {trees : List TypeTree}
    (hms : List.Forall₂ graph.Unfolds ms trees) (hns : List.Forall₂ graph.Unfolds ns trees)
    (heq : ∀ m ∈ ms, ∀ n tree, graph.Unfolds m tree → graph.Unfolds n tree → m = n) :
    ms = ns := by
  induction hms generalizing ns with
  | nil =>
      cases hns
      rfl
  | @cons m tree ms trees hm _ ih =>
      cases hns with
      | @cons n _ ns _ hn hns =>
          rw [heq m List.mem_cons_self n tree hm hn,
            ih hns fun other hother => heq other (List.mem_cons_of_mem _ hother)]

theorem head_of_targetUnfolds {head : Head} {target : Target} {tree : TypeTree}
    (h : graph.TargetUnfolds head target tree) : tree.head = head := by
  cases h <;> rfl

theorem target_eq_of_unfolds (hlinked : graph.Linked rows links) {m n : Nat} {role role' : Role}
    {head head' : Head} {target target' : Target} {tree : TypeTree}
    (hmfits : TargetFits rows links m role target) (hnfits : TargetFits rows links n role' target')
    (hm : graph.TargetUnfolds head target tree) (hn : graph.TargetUnfolds head' target' tree)
    (heq : ∀ inner < m, ∀ other tree, graph.Unfolds inner tree → graph.Unfolds other tree →
      inner = other) : target = target' := by
  generalize htree : tree = tree' at hn
  cases hm with
  | element hm =>
      cases hn with
      | element hn =>
          cases htree
          cases hmfits with
          | element hlt => rw [heq _ hlt _ _ hm hn]
      | _ => cases htree
  | definition =>
      cases hn with
      | definition =>
          simp only [TypeTree.definition.injEq, Int.natCast_inj] at htree
          rw [htree.2]
      | _ => cases htree
  | parameter =>
      cases hn with
      | parameter =>
          simp only [TypeTree.parameter.injEq, Int.natCast_inj] at htree
          rw [htree.2]
      | _ => cases htree
  | @instantiation _ i instantiation trees hi hmtrees =>
      cases hn with
      | @instantiation _ j instantiation' trees' hj hntrees =>
          simp only [TypeTree.instantiation.injEq, Int.natCast_inj] at htree
          obtain ⟨-, hdefinition, rfl⟩ := htree
          rw [hlinked.instantiations] at hi hj
          cases hmfits with
          | instantiation hmindex hmtype hmclass hmsmaller =>
              cases hnfits with
              | instantiation hnindex hntype hnclass hnsmaller =>
                  obtain rfl := Option.some.inj (hi.symm.trans hmindex)
                  obtain rfl := Option.some.inj (hj.symm.trans hnindex)
                  have harguments := eq_of_trees hmtrees hntrees fun inner hinner =>
                    heq inner (hmsmaller inner hinner)
                  have hsame : instantiation = instantiation' := by
                    cases instantiation
                    cases instantiation'
                    simp_all
                  subst hsame
                  rw [links.instantiations.number_inj hi hj]
      | _ => cases htree
  | plain =>
      cases hn with
      | plain => rfl
      | _ => cases htree

/-- References that stand for the same tree are the same. -/
theorem eq_of_unfolds (hlinked : graph.Linked rows links) {m n : Nat} {tree : TypeTree}
    (hm : graph.Unfolds m tree) (hn : graph.Unfolds n tree) : m = n := by
  induction m using Nat.strongRecOn generalizing n tree with
  | ind m ih =>
      obtain @⟨_, reference, _, hmreference, hm⟩ := hm
      obtain @⟨_, reference', _, hnreference, hn⟩ := hn
      rw [hlinked.references] at hmreference hnreference
      have hhead := (head_of_targetUnfolds hm).symm.trans (head_of_targetUnfolds hn)
      have htarget := target_eq_of_unfolds hlinked (hlinked.valid.references hmreference)
        (hlinked.valid.references hnreference) hm hn fun inner hlt other tree => ih inner hlt
      have hsame : reference = reference' := by
        cases reference
        cases reference'
        simp_all [TypeReference.head]
      subst hsame
      exact links.references.number_inj hmreference hnreference

end Trees

end TypeAtlas
