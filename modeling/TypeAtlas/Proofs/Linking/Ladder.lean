import TypeAtlas.Proofs.Linking.Containment
import TypeAtlas.Proofs.Linking.Depths

namespace TypeAtlas.TypeGraph

open Links Link

/-- A blob with a field of a number, and with a field of each of some generic instances, of which
each has the one before for its argument. -/
def ladderBlob (depth : Nat) : Metadata :=
  { smallBlob with
    tables := [
      (.fields, ((List.range (depth + 1)).map fun k : Nat => [-1, (k : Int), 0]).toArray),
      (.typeReferences,
        ([0, 0, 8, 0] :: (List.range depth).map fun k : Nat => [(k : Int), 0, 21, 0]).toArray),
      (.genericClasses, ((List.range depth).map fun k : Nat => [0, (k : Int)]).toArray),
      (.genericInsts, ((List.range depth).map fun k : Nat => [1, (k : Int)]).toArray),
      (.genericArguments, ((List.range depth).map fun k : Nat => [(k : Int)]).toArray),
      (.typeDefinitions, #[
        [-1, -1, 0, -1, -1, -1, -1, 0, 0, 0, 0, 0, 0, 0, 0, 0, 0, 0, 0, 0, 0, 0, 0, 0, 0, 0]])] }

/-- The rows of a ladder of generic instances. -/
structure IsLadder (rows : Rows) (depth : Nat) : Prop where
  fields : rows.fields = ((List.range (depth + 1)).map fun k : Nat => ⟨-1, k, 0⟩).toArray
  references : rows.references =
    (⟨0, 0, 8, 0⟩ :: (List.range depth).map fun k : Nat => ⟨k, 0, 21, 0⟩).toArray
  genericClasses : rows.genericClasses = ((List.range depth).map fun k : Nat => ⟨0, k⟩).toArray
  genericInsts : rows.genericInsts = ((List.range depth).map fun k : Nat => ⟨1, k⟩).toArray
  genericArguments : rows.genericArguments =
    ((List.range depth).map fun k : Nat => (k : Int)).toArray
  types : rows.types = #[⟨-1, -1, -1, -1, -1, 0, 0, 0, 0, 0, 0, 0, 0, 0, 0, 0, 0, 0⟩]
  images : rows.images = #[]
  methods : rows.methods = #[]
  genericParameters : rows.genericParameters = #[]
  defaults : rows.defaults = #[]
  properties : rows.properties = #[]
  methodSpecs : rows.methodSpecs = #[]

theorem isLadder_ladderBlob (depth : Nat) : IsLadder (ladderBlob depth).rows depth := by
  constructor
  case fields | genericClasses | genericInsts | genericArguments =>
    change Array.map _ (List.toArray (List.map _ _)) = _
    rw [List.map_toArray, List.map_map]
    rfl
  case references =>
    change Array.map _ (List.toArray (_ :: List.map _ _)) = _
    rw [List.map_toArray, List.map_cons, List.map_map]
    rfl
  case types =>
    change Array.map _ (List.toArray _) = _
    rw [List.map_toArray]
    rfl
  all_goals
    change Array.map _ #[] = _
    exact Array.map_empty

section Rows

variable {rows : Rows} {depth k : Nat}

theorem IsLadder.number_row (h : IsLadder rows depth) :
    rows.references[0]? = some ⟨0, 0, 8, 0⟩ := by
  simp [h.references]

theorem IsLadder.instance_row (h : IsLadder rows depth) (hk : k < depth) :
    rows.references[k + 1]? = some ⟨k, 0, 21, 0⟩ := by
  simp [h.references, hk]

theorem IsLadder.class_row (h : IsLadder rows depth) (hk : k < depth) :
    rows.genericClasses[k]? = some ⟨0, k⟩ := by
  simp [h.genericClasses, hk]

theorem IsLadder.inst_row (h : IsLadder rows depth) (hk : k < depth) :
    rows.genericInsts[k]? = some ⟨1, k⟩ := by
  simp [h.genericInsts, hk]

theorem IsLadder.argument_row (h : IsLadder rows depth) (hk : k < depth) :
    rows.genericArguments[k]? = some (k : Int) := by
  simp [h.genericArguments, hk]

theorem IsLadder.unfolds (h : IsLadder rows depth) (hk : k ≤ depth) :
    ∃ tree, rows.Unfolds k tree ∧ tree.nesting = k := by
  induction k with
  | zero =>
      have hrow : valueAt? rows.references (0 : Nat) = some ⟨0, 0, 8, 0⟩ := h.number_row
      exact ⟨_, .row hrow .plain, rfl⟩
  | succ k ih =>
      obtain ⟨inner, hinner, hnesting⟩ := ih (Nat.le_of_succ_le hk)
      have hrow : valueAt? rows.references (k + 1 : Nat) = some ⟨k, 0, 21, 0⟩ := h.instance_row hk
      have hclass : valueAt? rows.genericClasses k = some ⟨0, k⟩ := h.class_row hk
      have hinst : valueAt? rows.genericInsts k = some ⟨1, k⟩ := h.inst_row hk
      have hargument : valueAt? rows.genericArguments k = some (k : Int) := h.argument_row hk
      have harguments : rows.argumentRows? k = some [(k : Int)] := by
        rw [Rows.argumentRows?, if_neg (by simp [Bounds.noIndex]), hinst]
        simp [valuesAt?, hargument]
      refine ⟨_, .row hrow (.instantiation hclass harguments (.cons hinner .nil)), ?_⟩
      simp [TypeTree.nesting, TypeTree.argumentNesting, hnesting]

end Rows

section Linking

variable {α β : Type} {rows : Rows} {links : Links} {depth : Nat}

/-- A computation answers, if it begins with some links. -/
def Answered (links : Links) (action : Link α) : Prop :=
  ∃ result, StateT.run action links = .ok result

theorem Answered.pure (value : α) : Answered links (Pure.pure value) :=
  ⟨_, rfl⟩

theorem Answered.bind {first : Link α} {next : α → Link β} {value : α} {after : Links}
    (hfirst : StateT.run first links = .ok (value, after)) (hnext : Answered after (next value)) :
    Answered links (first >>= next) := by
  obtain ⟨result, hresult⟩ := hnext
  refine ⟨result, ?_⟩
  rw [StateT.run_bind, hfirst]
  exact hresult

theorem Answered.then {first : Link α} {next : α → Link β} (hfirst : Answered links first)
    (hnext : ∀ value after, Answered after (next value)) : Answered links (first >>= next) := by
  obtain ⟨⟨value, after⟩, hrun⟩ := hfirst
  exact .bind hrun (hnext value after)

theorem Answered.liftBind {result : Except Fault α} {next : α → Link β} {value : α}
    (hresult : result = .ok value) (hnext : Answered links (next value)) :
    Answered links (liftM result >>= next) := by
  rw [hresult]
  exact hnext

theorem Answered.getBind {next : Links → Link β} (hnext : Answered links (next links)) :
    Answered links (get >>= next) := hnext

theorem Answered.modify {change : Links → Links} {next : Unit → Link β}
    (hnext : Answered (change links) (next ())) : Answered links (modify change >>= next) := hnext

theorem IsLadder.linkArguments (h : IsLadder rows depth) {next : Int → Site → Link Nat}
    {last number : Nat} (hlast : last < depth) (table : Table) (user : Nat)
    (hnext : ∀ site, StateT.run (next last site) links = .ok (number, links)) :
    Answered links (linkArguments rows next last table user) := by
  have hinst := h.inst_row hlast
  have hrange : Bounds.range rows last 1 .genericArguments ⟨.genericInsts, last, "arguments"⟩ =
      .ok [last] := by
    refine Bounds.range_eq_ok_iff.mpr ⟨Or.inr ⟨by omega, ?_⟩, rfl⟩
    simp only [Rows.count, h.genericArguments, List.size_toArray, List.length_map,
      List.length_range]
    omega
  unfold Link.linkArguments
  rw [if_neg (by simp [Bounds.noIndex])]
  refine .liftBind (Bounds.index_eq_ok_iff.mpr ⟨rfl, (Array.getElem?_eq_some_iff.mp hinst).1⟩) ?_
  refine .getBind ?_
  cases links.arguments[last]? with
  | some numbers => exact .pure numbers
  | none =>
      simp only [hinst, Option.getD_some]
      refine .liftBind hrange (.bind (?_ : _ = Except.ok ([number], links)) (.modify (.pure _)))
      rw [List.mapM_cons, List.mapM_nil, h.argument_row hlast, Option.getD_some, StateT.run_bind,
        hnext]
      rfl

theorem IsLadder.leafTarget (h : IsLadder rows depth) {next : Int → Site → Link Nat} {k : Nat}
    (hk : k ≤ depth)
    (hnext : ∀ last, k = last + 1 → ∃ number, ∀ site,
      StateT.run (next last site) links = .ok (number, links)) :
    Answered links (leafTarget rows next k) := by
  unfold Link.leafTarget
  cases k with
  | zero =>
      have hrow : row rows 0 = ⟨0, 0, 8, 0⟩ := row_eq h.number_row
      rw [hrow]
      exact .pure _
  | succ last =>
      obtain ⟨number, hnumber⟩ := hnext last rfl
      have hrow : row rows (last + 1) = ⟨last, 0, 21, 0⟩ := row_eq (h.instance_row hk)
      have hclass := h.class_row hk
      have hindex : Bounds.index rows last .genericClasses ⟨.typeReferences, last + 1, "data"⟩ =
          .ok last := Bounds.index_eq_ok_iff.mpr ⟨rfl, (Array.getElem?_eq_some_iff.mp hclass).1⟩
      have hdefinition : Bounds.index rows 0 .typeDefinitions
          ⟨.genericClasses, last, "type_definition_index"⟩ = .ok 0 :=
        Bounds.index_eq_ok_iff.mpr ⟨rfl, by simp [Rows.count, h.types]⟩
      have hanswered : Answered links (linkClass rows next last (last + 1)) := by
        refine .liftBind hindex ?_
        simp only [hclass, Option.getD_some]
        refine .liftBind hdefinition (.then (h.linkArguments hk _ _ hnumber) ?_)
        exact fun arguments after => ⟨_, rfl⟩
      rw [hrow]
      exact .then hanswered fun _ _ => .pure _

theorem IsLadder.reference (h : IsLadder rows depth) {k : Nat} (hk : k ≤ depth)
    (hlast : ∀ last, k = last + 1 → ∃ number, links.linked[last]? = some number) (site : Site) :
    Answered links (reference rows k site) := by
  have hsize : rows.references.size = depth + 1 := by simp [h.references]
  have hrole : Kind.role (row rows k).kind ≠ .element := by
    cases k with
    | zero =>
        rw [row_eq h.number_row]
        decide
    | succ last =>
        rw [row_eq (h.instance_row hk)]
        exact (by decide : Kind.role 21 ≠ .element)
  have hchain : elementChain rows links.linked [] (rows.references.size + 1) [] k =
      .ok ([], k) := by
    rw [elementChain]
    split <;> rfl
  unfold Answered Link.reference
  rw [linkReference, run_linkWith (by omega) hchain site]
  cases links.linked[k]? with
  | some number => exact ⟨_, rfl⟩
  | none =>
      refine Answered.then (h.leafTarget hk fun last hbefore => ?_) fun target after => ?_
      · obtain ⟨number, hnumber⟩ := hlast last hbefore
        exact ⟨number, run_linkReference_of_linked _ _ (by omega) hnumber⟩
      · exact ⟨_, run_linkRow rows after k target⟩

theorem IsLadder.mapFields (h : IsLadder rows depth) (types : Array TypeDefinition)
    {k count : Nat} (hcount : k + count = depth + 1) (hvalid : Valid rows links)
    (hlast : ∀ last, k = last + 1 → ∃ number, links.linked[last]? = some number) (start : Nat) :
    Answered links (mapRows (makeField rows types) start
      ((List.range' k count).map fun k : Nat => ⟨-1, k, 0⟩)) := by
  -- From field to field, the row before the next one has been linked.
  induction count generalizing k links start with
  | zero => exact .pure _
  | succ count ih =>
      obtain ⟨⟨number, after⟩, hrun⟩ :=
        h.reference (by omega) hlast ⟨.fields, start, "type_index"⟩
      obtain ⟨-, hvalid', i, hi, -, hnumber⟩ := reference_ensures k _ hvalid number after hrun
      obtain rfl : k = i := by omega
      have hfield : ∃ field, StateT.run (makeField rows types start ⟨-1, k, 0⟩) links =
          .ok (field, after) := by
        unfold makeField
        rw [StateT.run_bind, hrun]
        exact ⟨_, rfl⟩
      obtain ⟨field, hfield⟩ := hfield
      rw [List.range'_succ, List.map_cons]
      refine .bind hfield (.then (ih (by omega) hvalid' ?_ (start + 1)) fun _ _ => .pure _)
      intro last hnext
      obtain rfl : k = last := by omega
      exact ⟨number, hnumber⟩

theorem IsLadder.type (h : IsLadder rows depth) : ∃ type : TypeDefinition,
    StateT.run (forRows rows.types (makeType rows)) {} = .ok (#[type], {}) ∧
      type.enclosing = none ∧ type.base = none ∧ type.properties = [] := by
  rw [h.types]
  exact ⟨_, rfl, rfl, rfl, rfl⟩

theorem IsLadder.link (h : IsLadder rows depth) : Answered {} (link rows) := by
  obtain ⟨type, htype, henclosing, hbase, hproperties⟩ := h.type
  have hends : ∀ {relation : TypeDefinition → Option Nat} (phrase : String),
      relation type = none → Chain.checkTypes #[type] relation phrase = .ok () := by
    intro relation phrase hnone
    refine Chain.checkTypes_isOk phrase fun start hstart => .some ?_
    obtain rfl : start = 0 := Nat.lt_one_iff.mp hstart
    rw [Chain.step, List.getElem?_toArray, List.getElem?_cons_zero, Option.bind_some, hnone]
    exact .none
  refine .bind htype (.liftBind (hends _ henclosing) (.liftBind (hends _ hbase) ?_))
  rw [h.images, h.genericParameters, h.methods, h.fields, h.defaults, h.methodSpecs,
    List.range_eq_range']
  have hmade : makeProperties rows (assignModules #[type] #[]) = .ok #[] := by
    simp [makeProperties, assignModules, hproperties, h.properties]
    rfl
  refine .bind rfl (.bind rfl (.bind rfl ?_))
  refine .then (.then (h.mapFields _ (Nat.zero_add _) (valid_empty rows) ?_ 0) ?_) ?_
  · exact fun last hnext => absurd hnext (Nat.succ_ne_zero last).symm
  · exact fun _ _ => .pure _
  · exact fun bare links => .bind rfl (.liftBind hmade (.bind rfl (.getBind (.pure _))))

end Linking

/-- However deep generic instances are nested, some graph has a reference to them. -/
theorem exists_nesting_eq (depth : Nat) : ∃ metadata graph number tree,
    (build metadata).outcome.1 = .ok graph ∧ graph.Unfolds number tree ∧ tree.nesting = depth := by
  have hladder := isLadder_ladderBlob depth
  obtain ⟨⟨graph, links⟩, hrun⟩ := hladder.link
  have hlinked := (link_ensures (ladderBlob depth).rows graph links hrun).2.2
  obtain ⟨tree, htree, hnesting⟩ := hladder.unfolds le_rfl
  have hfield : (⟨-1, depth, 0⟩ : FieldRow) ∈ (ladderBlob depth).rows.fields := by
    simp [hladder.fields]
  obtain ⟨number, hleads⟩ := exists_leads_of_uses hlinked (.field hfield)
  obtain ⟨same, hsame, hunfolds⟩ := sameTree_of_leads hlinked hleads
  obtain rfl := hsame.unique htree
  refine ⟨ladderBlob depth, graph, number, same, ?_, hunfolds, hnesting⟩
  rw [outcome_build, ofRows, hrun]
  rfl

end TypeAtlas.TypeGraph
