import TypeAtlas.Proofs.Linking.Depths
/-!
The limit on nesting and what it does not limit: every reference of a graph is that of a row that
lies in at most so many generic instances inside of a definition. A reference can still be nested
deeper, but only through rows that are shared: those have been linked from elsewhere, which need not
be as deep.
-/

namespace TypeAtlas.TypeGraph

open Links Link

variable {rows : Rows}

section Passes

variable {α β : Type}

theorem mapRows_placed {make : Nat → α → Link β} (start : Nat) {items : List α}
    (hmake : ∀ index, ∀ row ∈ items, KeepsPlaced rows (make index row)) :
    KeepsPlaced rows (mapRows make start items) := by
  induction items generalizing start with
  | nil => exact .pure _
  | cons item items ih =>
      refine .bind (hmake start item List.mem_cons_self) fun first => ?_
      refine .bind (ih (start + 1) fun index row hrow => ?_) fun rest => .pure _
      exact hmake index row (List.mem_cons_of_mem _ hrow)

theorem forRows_placed {source : Array α} {make : Nat → α → Link β}
    (hmake : ∀ index, ∀ row ∈ source, KeepsPlaced rows (make index row)) :
    KeepsPlaced rows (forRows source make) :=
  .bind (mapRows_placed 0 fun index row hrow => hmake index row (Array.mem_toList_iff.mp hrow))
    fun _ => .pure _

theorem makeType_placed (index : Nat) {row : TypeRow} (hrow : row ∈ rows.types) :
    KeepsPlaced rows (makeType rows index row) := by
  refine .liftBind fun base _ => .liftBind fun enclosing _ => .liftBind fun fields _ => ?_
  refine .liftBind fun methods _ => .liftBind fun properties _ => .liftBind fun nested _ => ?_
  refine .liftBind fun listed hlisted => .liftBind fun name _ => .liftBind fun space _ => ?_
  refine .bind (.mapM fun place _ => .lift _) fun nestedTypes => ?_
  refine .bind (listed_placed _ hlisted rfl fun value hvalue => ?_) fun interfaces => ?_
  · exact reference_placed (.interface hrow hvalue)
  · exact .liftBind fun parameters _ => .pure _

theorem makeModule_placed (index : Nat) (row : ImageRow) :
    KeepsPlaced rows (makeModule rows index row) :=
  .liftBind fun _ _ => .liftBind fun _ _ => .pure _

theorem makeGenericParameter_placed (index : Nat) {row : GenericParameterRow}
    (hrow : row ∈ rows.genericParameters) :
    KeepsPlaced rows (makeGenericParameter rows index row) := by
  refine .liftBind fun container _ => .liftBind fun owner _ => .liftBind fun range hrange => ?_
  refine .liftBind fun name _ => .bind (listed_placed _ hrange rfl fun value hvalue => ?_) ?_
  · exact reference_placed (.constraint hrow hvalue)
  · exact fun constraints => .pure _

theorem makeMethod_placed (index : Nat) {row : MethodRow} (hrow : row ∈ rows.methods) :
    KeepsPlaced rows (makeMethod rows index row) := by
  refine .liftBind fun declaringType _ => .liftBind fun range hrange => ?_
  refine .bind (.mapM fun place hplace => ?_) fun parameters => .liftBind fun name _ => ?_
  · obtain ⟨parameter, hparameter, -, hlists⟩ :=
      exists_value_of_range rows.parameters hrange rfl hplace
    rw [makeParameter, hparameter, Option.getD_some]
    refine .liftBind fun name _ => .bind (reference_placed (.parameter hrow hlists) _) ?_
    exact fun type => .pure _
  · refine .bind (reference_placed (.returned hrow) _) fun returnType => ?_
    exact .liftBind fun generic _ => .pure _

theorem makeField_placed (types : Array TypeDefinition) (index : Nat) {row : FieldRow}
    (hrow : row ∈ rows.fields) : KeepsPlaced rows (makeField rows types index row) :=
  .bind (reference_placed (.field hrow) _) fun _ => .liftBind fun _ _ => .pure _

theorem makeMethodSpec_placed (index : Nat) {row : MethodSpecRow}
    (hrow : row ∈ rows.methodSpecs) : KeepsPlaced rows (makeMethodSpec rows index row) := by
  refine .liftBind fun method hmethod => ?_
  intro links hvalid hplaced
  have hclass : KeepsPlaced rows (argumentList rows row.classArguments .methodSpecs index) :=
    argumentList_placed fun argument hargument => .classArgument hrow hargument
  have hown : KeepsPlaced rows (argumentList rows row.methodArguments .methodSpecs index) :=
    argumentList_placed fun argument hargument => .methodArgument hrow hargument
  refine .bind ((argumentList_ensures hvalid).and (hclass links hvalid hplaced)) ?_
  rintro classArguments middle _ hvalid' ⟨hclassLeads, hplaced'⟩
  refine .bind ((argumentList_ensures hvalid').and (hown middle hvalid' hplaced')) ?_
  rintro arguments after hgrow hvalid'' ⟨hownLeads, hplaced''⟩
  have hfits : InstantiationFits rows after ⟨method, true, classArguments, arguments⟩ :=
    ⟨(Bounds.index_eq_ok_iff.mp hmethod).2, (hclassLeads.mono hgrow).lt_size hvalid'',
      hownLeads.lt_size hvalid''⟩
  exact internInstantiation_placed hvalid'' hplaced'' hfits

theorem link_placed (rows : Rows) : KeepsPlaced rows (link rows) := by
  refine .bind (forRows_placed fun index row => makeType_placed index) fun unassigned => ?_
  refine .liftBind fun _ _ => .liftBind fun _ _ => ?_
  refine .bind (forRows_placed fun index row _ => makeModule_placed index row) fun modules => ?_
  refine .bind (forRows_placed fun index row => makeGenericParameter_placed index) fun _ => ?_
  refine .bind (forRows_placed fun index row => makeMethod_placed index) fun methods => ?_
  refine .bind (forRows_placed fun index row => makeField_placed _ index) fun bare => ?_
  refine .bind (.mapM fun entry _ => .lift _) fun defaults => .liftBind fun properties _ => ?_
  refine .bind (forRows_placed fun index row => makeMethodSpec_placed index) fun specs => ?_
  exact fun links hvalid hplaced => .getBind (.pure hvalid hplaced)

end Passes

section Nesting

variable {links : Links} {graph : TypeGraph} {index : Int} {tree : TypeTree}

theorem within_of_used (hlinked : graph.Linked rows links) (hplaced : Placed rows links)
    (hused : rows.Used index) (hleaf : rows.IsLeaf index) : rows.Within mostNesting index := by
  obtain ⟨number, i, rfl, -, hnumber⟩ := exists_leads_of_used hlinked hused
  exact hplaced.within hnumber hleaf

/-- The generic instances above a row that no row on the way to it shares are limited. -/
theorem depth_le_of_not_shared (hlinked : graph.Linked rows links) (hplaced : Placed rows links)
    {part : Int} {depth : Nat} (hused : rows.Used index) (hleaf : rows.IsLeaf part)
    (h : rows.Descends (fun part => ¬rows.Shared part) index depth part) :
    depth ≤ mostNesting := by
  obtain ⟨user, depth', huses, hdescends, hle⟩ :=
    within_of_used hlinked hplaced (h.used hused) hleaf
  exact (h.le_of_not_shared hdescends hused huses).trans hle

theorem nesting_le_of_not_shared (hlinked : graph.Linked rows links) (hplaced : Placed rows links)
    (hused : rows.Used index) (htree : rows.Unfolds index tree)
    (hown : ∀ part, Relation.TransGen rows.Refers index part → ¬rows.Shared part) :
    tree.nesting ≤ mostNesting := by
  obtain ⟨leaf, hleaf, hdescends⟩ := exists_descent htree hown
  exact depth_le_of_not_shared hlinked hplaced hused hleaf hdescends

theorem exists_row_of_reference (hlinked : graph.Linked rows links) (hplaced : Placed rows links)
    {number : Nat} (hlt : number < graph.references.size) :
    ∃ index tree, rows.Used index ∧ rows.Unfolds index tree ∧ graph.Unfolds number tree := by
  rw [hlinked.references] at hlt
  obtain ⟨index, hindex⟩ := hplaced.made hlt
  obtain ⟨row, _, hrow, -, -⟩ := hlinked.valid.linked hindex
  have hleads : Leads rows links index number :=
    ⟨index, rfl, (Array.getElem?_eq_some_iff.mp hrow).1, hindex⟩
  obtain ⟨tree, htree, hreference⟩ := sameTree_of_leads hlinked hleads
  exact ⟨index, tree, hplaced.used hindex, htree, hreference⟩

/-- Every reference of a graph is that of a used row. Whatever a definition uses, by itself or as a
part of something else, lies in at most so many generic instances inside of some definition, unless
it is an array or a pointer. So a descent of more generic instances passes a row that is shared, and
what shares none of its parts is not nested deeper. -/
structure Limited (rows : Rows) (graph : TypeGraph) : Prop where
  references : ∀ {number : Nat}, number < graph.references.size →
    ∃ index tree, rows.Used index ∧ rows.Unfolds index tree ∧ graph.Unfolds number tree
  within : ∀ {index : Int}, rows.Used index → rows.IsLeaf index → rows.Within mostNesting index
  descents : ∀ {index part : Int} {depth : Nat}, rows.Used index → rows.IsLeaf part →
    rows.Descends (fun part => ¬rows.Shared part) index depth part → depth ≤ mostNesting
  trees : ∀ {index : Int} {tree : TypeTree}, rows.Used index → rows.Unfolds index tree →
    (∀ part, Relation.TransGen rows.Refers index part → ¬rows.Shared part) →
      tree.nesting ≤ mostNesting

/-- The nesting of references is limited in a graph that has been built. -/
theorem nesting_of_build {metadata : Metadata} (h : (build metadata).outcome.1 = .ok graph) :
    Limited metadata.rows graph := by
  obtain ⟨links, hrun⟩ := exists_run_of_build h
  have hlinked := (link_ensures metadata.rows graph links hrun).2.2
  have hplaced := (link_placed metadata.rows {} (valid_empty _) (placed_empty _) _ _ hrun).2.2
  exact {
    references := exists_row_of_reference hlinked hplaced
    within := within_of_used hlinked hplaced
    descents := depth_le_of_not_shared hlinked hplaced
    trees := nesting_le_of_not_shared hlinked hplaced }

end Nesting

/-- A blob with a field of a generic instance of a number. -/
def nestedBlob : Metadata :=
  { smallBlob with
    tables := [
      (.fields, #[[-1, 1, 0]]),
      (.typeReferences, #[[0, 0, 8, 0], [0, 0, 21, 0]]),
      (.genericClasses, #[[0, 0]]),
      (.genericInsts, #[[1, 0]]),
      (.genericArguments, #[[0]]),
      (.typeDefinitions, #[
        [-1, -1, 0, -1, -1, -1, -1, 0, 0, 0, 0, 0, 0, 0, 0, 0, 0, 0, 1, 0, 0, 0, 0, 0, 0, 0]])] }

/-- The rows of a nested blob. -/
structure HasNested (rows : Rows) : Prop where
  types : rows.types = #[⟨-1, -1, -1, -1, -1, 0, 1, 0, 0, 0, 0, 0, 0, 0, 0, 0, 0, 0⟩]
  fields : rows.fields = #[⟨-1, 1, 0⟩]
  references : rows.references = #[⟨0, 0, 8, 0⟩, ⟨0, 0, 21, 0⟩]
  genericClasses : rows.genericClasses = #[⟨0, 0⟩]
  genericInsts : rows.genericInsts = #[⟨1, 0⟩]
  genericArguments : rows.genericArguments = #[0]
  methods : rows.methods = #[]
  genericParameters : rows.genericParameters = #[]
  methodSpecs : rows.methodSpecs = #[]

theorem hasNested_nestedBlob : HasNested nestedBlob.rows := by
  constructor <;> cbv

section Nested

variable {rows : Rows} {index part : Int}

theorem HasNested.uses (h : HasNested rows) (huses : rows.Uses index) : index = 1 := by
  cases huses with
  | field hrow =>
      simp only [h.fields, List.mem_toArray, List.mem_singleton] at hrow
      rw [hrow]
  | interface hrow hindex =>
      simp only [h.types, List.mem_toArray, List.mem_singleton] at hrow
      obtain ⟨i, hi, -⟩ := hindex
      rw [hrow] at hi
      exact absurd hi (Int.not_lt.mpr (Int.natCast_nonneg i))
  | returned hrow | parameter hrow => simp [h.methods] at hrow
  | constraint hrow => simp [h.genericParameters] at hrow
  | classArgument hrow | methodArgument hrow => simp [h.methodSpecs] at hrow

theorem HasNested.row (h : HasNested rows) {row : ReferenceRow}
    (hrow : valueAt? rows.references index = some row) :
    index = 0 ∧ Kind.role row.kind = .plain ∨
      index = 1 ∧ Kind.role row.kind = .instantiation := by
  obtain ⟨n, rfl, hrow⟩ := valueAt?_eq_some_iff.mp hrow
  rw [h.references] at hrow
  have hlt : n < 2 := (Array.getElem?_eq_some_iff.mp hrow).1
  interval_cases n
  · obtain rfl := Option.some.inj hrow
    exact Or.inl ⟨rfl, by decide⟩
  · obtain rfl := Option.some.inj hrow
    exact Or.inr ⟨rfl, by decide⟩

theorem HasNested.refers (h : HasNested rows) (hrefers : rows.Refers index part) :
    index = 1 ∧ part = 0 := by
  cases hrefers with
  | element hrow hrole =>
      rcases h.row hrow with ⟨-, hother⟩ | ⟨-, hother⟩ <;> simp [hother] at hrole
  | argument hrow hrole hclass hargument =>
      rcases h.row hrow with ⟨-, hother⟩ | ⟨rfl, -⟩
      · simp [hother] at hrole
      · obtain ⟨inst, -, place, -, hvalue⟩ := hargument
        obtain ⟨n, -, hvalue⟩ := valueAt?_eq_some_iff.mp hvalue
        have hmem := Array.mem_of_getElem? hvalue
        simp only [h.genericArguments, List.mem_toArray, List.mem_singleton] at hmem
        exact ⟨rfl, hmem⟩

theorem HasNested.not_shared (h : HasNested rows)
    (hreach : Relation.TransGen rows.Refers index part) : ¬rows.Shared part := by
  obtain ⟨before, -, hbefore⟩ := Relation.TransGen.tail'_iff.mp hreach
  rintro (huses | ⟨user, other, hne, -, -, huser, hother⟩)
  · exact absurd ((h.uses huses).symm.trans (h.refers hbefore).2) (by decide)
  · exact hne ((h.refers huser).1.trans (h.refers hother).1.symm)

theorem HasNested.unfolds (h : HasNested rows) :
    ∃ tree, rows.Unfolds 1 tree ∧ tree.nesting = 1 := by
  have hint : rows.Unfolds (0 : Nat) (.plain ⟨8, false, 0⟩) :=
    .row (by rw [h.references]; rfl : valueAt? rows.references (0 : Nat) = some ⟨0, 0, 8, 0⟩) .plain
  have hclass : valueAt? rows.genericClasses (0 : Nat) = some ⟨0, 0⟩ := by
    rw [h.genericClasses]
    rfl
  have harguments : rows.argumentRows? 0 = some [0] := by
    simp [Rows.argumentRows?, Bounds.noIndex, valueAt?, h.genericInsts, h.genericArguments,
      valuesAt?]
  have houter : rows.Unfolds (1 : Nat) _ :=
    .row (by rw [h.references]; rfl : valueAt? rows.references (1 : Nat) = some ⟨0, 0, 21, 0⟩)
      (.instantiation hclass harguments (.cons hint .nil))
  exact ⟨_, houter, by decide⟩

end Nested

theorem nesting_nestedBlob : ∃ graph tree, (build nestedBlob).outcome.1 = .ok graph ∧
    graph.fields.toList.map FieldDefinition.type = [1] ∧ nestedBlob.rows.Unfolds 1 tree ∧
      tree.nesting = 1 ∧ tree.nesting ≤ mostNesting := by
  obtain ⟨graph, hgraph, hfields⟩ : ∃ graph, (build nestedBlob).outcome.1 = .ok graph ∧
      graph.fields.toList.map FieldDefinition.type = [1] := exists_build_of_map (by cbv)
  have hfield : (⟨-1, 1, 0⟩ : FieldRow) ∈ nestedBlob.rows.fields := by
    simp [hasNested_nestedBlob.fields]
  obtain ⟨tree, htree, hnesting⟩ := hasNested_nestedBlob.unfolds
  have hlimit := (nesting_of_build hgraph).trees (Rows.Uses.field hfield).used htree
    fun part => hasNested_nestedBlob.not_shared
  exact ⟨graph, tree, hgraph, hfields, htree, hnesting, hlimit⟩

end TypeAtlas.TypeGraph
