import TypeAtlas.Proofs.Linking.Reads

namespace TypeAtlas

open Link TypeGraph

/-- The rows of a table that linking may read. It may read every row of most tables, but only those
rows of the type references and of the tables behind them that a definition uses, directly or
through other rows, or that are the type of a default value. -/
def Rows.Reaches (rows : Rows) : Table → Nat → Prop
  | .typeReferences, index => rows.Used index ∨ ∃ row ∈ rows.defaults, row.type = index
  | .genericClasses, index => rows.UsesClass index
  | .genericInsts, index => rows.UsesList index
  | .genericArguments, place => ∃ list row, rows.UsesList list ∧
      valueAt? rows.genericInsts list = some row ∧ InRange row.argumentStart row.argumentCount place
  | _, _ => True

/-- Rows that agree on all rows that linking of the first ones may read. -/
structure Rows.Agree (rows other : Rows) : Prop where
  same : ∃ strings references genericClasses genericInsts genericArguments,
    other = { rows with strings, references, genericClasses, genericInsts, genericArguments }
  strings : other.strings.get = rows.strings.get
  count : other.count = rows.count
  references : ∀ {index : Nat}, rows.Reaches .typeReferences index →
    other.references[index]? = rows.references[index]?
  genericClasses : ∀ {index : Nat}, rows.Reaches .genericClasses index →
    other.genericClasses[index]? = rows.genericClasses[index]?
  genericInsts : ∀ {index : Nat}, rows.Reaches .genericInsts index →
    other.genericInsts[index]? = rows.genericInsts[index]?
  genericArguments : ∀ {index : Nat}, rows.Reaches .genericArguments index →
    other.genericArguments[index]? = rows.genericArguments[index]?

section Steps

variable {α β : Type}

theorem liftBind_congr {result : Except Fault α} {next next' : α → Link β}
    (h : ∀ value, result = .ok value → next value = next' value) :
    (liftM result >>= next : Link β) = liftM result >>= next' := by
  cases hresult : result with
  | error fault => rfl
  | ok value => exact h value hresult

theorem mapRows_congr {make make' : Nat → α → Link β} {items : List α}
    (h : ∀ index, ∀ row ∈ items, make index row = make' index row) (start : Nat) :
    mapRows make start items = mapRows make' start items := by
  induction items generalizing start with
  | nil => rfl
  | cons row items ih =>
      rw [mapRows, mapRows, h start row List.mem_cons_self,
        ih fun index other hother => h index other (List.mem_cons_of_mem _ hother)]

theorem forRows_congr {make make' : Nat → α → Link β} {source : Array α}
    (h : ∀ index, ∀ row ∈ source, make index row = make' index row) :
    forRows source make = forRows source make' := by
  have hrows : ∀ index, ∀ row ∈ source.toList, make index row = make' index row :=
    fun index row hrow => h index row (Array.mem_toList_iff.mp hrow)
  rw [forRows, forRows, mapRows_congr hrows]

end Steps

section Chains

variable {rows : Rows} {linked : Std.HashMap Nat Nat} {path chain : List Nat}
  {last first index : Nat}

theorem getElem?_row_of_ne_plain (hrole : Kind.role (row rows index).kind ≠ .plain) :
    rows.references[index]? = some (row rows index) := by
  cases hrow : rows.references[index]? with
  | none =>
      rw [row, hrow] at hrole
      exact absurd rfl hrole
  | some found => rw [row_eq hrow]

theorem used_of_elementChain (hchain : ElementChain rows chain last first)
    (hused : rows.Used first) : (∀ i ∈ chain, rows.Used i) ∧ rows.Used last := by
  induction hchain with
  | nil => exact ⟨by simp, hused⟩
  | cons hlt hrole hdata _ ih =>
      obtain ⟨hbefore, hindex⟩ := ih hused
      refine ⟨List.forall_mem_cons.mpr ⟨hindex, hbefore⟩, ?_⟩
      rw [← hdata]
      exact hindex.tail (.element (getElem?_row hlt) hrole)

theorem reference_of_neg (rows : Rows) {value : Int} (hneg : value < 0) (site : Site) :
    reference rows value site = liftM (Except.error (Bounds.indexOutside value .typeReferences
      (rows.count .typeReferences) site) : Except Fault Nat) := by
  have hindex : Bounds.index rows value .typeReferences site =
      .error (Bounds.indexOutside value .typeReferences (rows.count .typeReferences) site) :=
    if_neg (by omega)
  rw [reference, linkReference, linkWith, hindex]
  rfl

end Chains

namespace Rows.Agree

variable {rows other : Rows} (h : rows.Agree other)

include h

theorem index : Bounds.index other = Bounds.index rows := by
  funext value target site
  rw [Bounds.index, Bounds.index, h.count]

theorem optionalIndex : Bounds.optionalIndex other = Bounds.optionalIndex rows := by
  funext value target site
  rw [Bounds.optionalIndex, Bounds.optionalIndex, h.index]

theorem range : Bounds.range other = Bounds.range rows := by
  funext start count target site
  rw [Bounds.range, Bounds.range, h.count]

section References

variable {linked : Std.HashMap Nat Nat} {path chain : List Nat} {current : Nat}
  {index : Int} {next next' : Int → Site → Link Nat}

theorem row_of_used (hused : rows.Used current) : row other current = row rows current := by
  rw [row, row, h.references (Or.inl hused)]

theorem elementChain (fuel : Nat) (hused : rows.Used current) :
    elementChain other linked path fuel chain current =
      elementChain rows linked path fuel chain current := by
  induction fuel generalizing chain current with
  | zero => rfl
  | succ fuel ih =>
      rw [Link.elementChain, Link.elementChain, h.row_of_used hused, h.index]
      by_cases hrole : Kind.role (row rows current).kind = .element
      · cases hnext : Bounds.index rows (row rows current).data .typeReferences
            ⟨.typeReferences, current, "data"⟩ with
        | error fault => rfl
        | ok next =>
            have hdata := (Bounds.index_eq_ok_iff.mp hnext).1
            have hrow := getElem?_row_of_ne_plain (by rw [hrole]; decide)
            have hpart := hused.tail (.element hrow hrole)
            rw [hdata] at hpart
            simp only [ok_bind, ih hpart]
      · rw [if_pos hrole, if_pos hrole]

theorem linkRow (hused : rows.Used current) (target : Target) :
    linkRow other current target = linkRow rows current target := by
  rw [Link.linkRow, Link.linkRow, h.row_of_used hused]

theorem linkChain (hused : ∀ i ∈ chain, rows.Used i) (number : Nat) :
    linkChain other chain number = linkChain rows chain number := by
  induction chain generalizing number with
  | nil => rfl
  | cons index chain ih =>
      obtain ⟨hindex, hchain⟩ := List.forall_mem_cons.mp hused
      rw [Link.linkChain, Link.linkChain, h.linkRow hindex]
      exact bind_congr fun outer => ih hchain outer

theorem linkArguments (hlist : rows.UsesList index) (table : Table) (user : Nat)
    (hnext : ∀ value site, rows.ListsArgument index value → next' value site = next value site) :
    linkArguments other next' index table user = linkArguments rows next index table user := by
  rw [Link.linkArguments, Link.linkArguments, h.index, h.range]
  split
  · rfl
  · refine liftBind_congr fun inst hinst => bind_congr fun links => ?_
    obtain ⟨rfl, hlt⟩ := Bounds.index_eq_ok_iff.mp hinst
    rw [h.genericInsts hlist]
    cases links.arguments[inst]? with
    | some numbers => rfl
    | none =>
        have hrow : rows.genericInsts[inst]? = some rows.genericInsts[inst] :=
          Array.getElem?_eq_getElem hlt
        simp only [hrow, Option.getD_some]
        refine liftBind_congr fun range hrange => ?_
        have hnumbers : ∀ place ∈ range,
            next' ((other.genericArguments[place]?).getD Bounds.noIndex)
                ⟨.genericArguments, place, "value"⟩ =
              next ((rows.genericArguments[place]?).getD Bounds.noIndex)
                ⟨.genericArguments, place, "value"⟩ := by
          intro place hplace
          obtain ⟨value, hvalue, hinside, hlists⟩ :=
            exists_value_of_range rows.genericArguments hrange rfl hplace
          rw [h.genericArguments ⟨inst, _, hlist, hrow, hinside⟩, hvalue, Option.getD_some]
          exact hnext value _ ⟨_, hrow, hlists⟩
        rw [mapM_congr hnumbers]

theorem linkClass {user : Nat} {row : ReferenceRow} (hused : rows.Used user)
    (hrow : rows.references[user]? = some row) (hrole : Kind.role row.kind = .instantiation)
    (hnext : ∀ value site, rows.Refers user value → next' value site = next value site) :
    linkClass other next' row.data user = linkClass rows next row.data user := by
  rw [Link.linkClass, Link.linkClass, h.index]
  refine liftBind_congr fun genericClass hindex => ?_
  obtain ⟨hdata, hlt⟩ := Bounds.index_eq_ok_iff.mp hindex
  have hclass : rows.UsesClass genericClass := ⟨user, row, hused, hrow, hrole, hdata⟩
  have hclassRow : rows.genericClasses[genericClass]? = some rows.genericClasses[genericClass] :=
    Array.getElem?_eq_getElem hlt
  rw [h.genericClasses hclass]
  simp only [hclassRow, Option.getD_some]
  refine bind_congr fun definition => ?_
  have hrefers : ∀ value, rows.ListsArgument rows.genericClasses[genericClass].arguments value →
      rows.Refers user value :=
    fun value => .argument hrow hrole (hdata ▸ hclassRow)
  rw [h.linkArguments (.genericClass hclass hclassRow) .genericClasses genericClass
    fun value site hlists => hnext value site (hrefers value hlists)]

theorem leafTarget (hused : rows.Used current)
    (hnext : ∀ value site, rows.Refers current value → next' value site = next value site) :
    leafTarget other next' current = leafTarget rows next current := by
  simp only [Link.leafTarget, h.row_of_used hused, h.index]
  cases hrole : Kind.role (row rows current).kind with
  | instantiation =>
      have hrow := getElem?_row_of_ne_plain (by rw [hrole]; decide)
      simp only [h.linkClass hused hrow hrole hnext]
  | element | definition | parameter | plain => rfl

theorem linkWith {leaf leaf' : Nat → Link Nat} (hused : rows.Used index)
    (hleaf : ∀ last : Nat, rows.Used last → leaf' last = leaf last) (site : Site) :
    linkWith other path leaf' index site = linkWith rows path leaf index site := by
  rw [Link.linkWith, Link.linkWith, h.index]
  refine liftBind_congr fun first hfirst => bind_congr fun links => ?_
  obtain ⟨rfl, hlt⟩ := Bounds.index_eq_ok_iff.mp hfirst
  have hsize : other.references.size = rows.references.size := congrFun h.count .typeReferences
  rw [h.elementChain _ hused, hsize]
  refine liftBind_congr fun result hresult => bind_congr fun links => ?_
  obtain ⟨chain, last⟩ := result
  obtain ⟨hchain, -, -⟩ := elementChain_eq_ok hresult hlt .nil
  obtain ⟨hpassed, hlast⟩ := used_of_elementChain hchain hused
  cases links.linked[last]? with
  | some number => exact h.linkChain hpassed number
  | none =>
      simp only [hleaf last hlast]
      exact bind_congr fun number => h.linkChain hpassed number

theorem linkReference (room : Nat) (path : List Nat) (hused : rows.Used index) (site : Site) :
    linkReference other room path index site = linkReference rows room path index site := by
  -- What a used row refers to is used; the room shrinks with each instance that is opened.
  induction room generalizing path index site with
  | zero => exact h.linkWith hused (fun _ _ => rfl) site
  | succ room ih =>
      refine h.linkWith hused (fun last hlast => ?_) site
      rw [h.leafTarget hlast fun value site hrefers =>
        ih (last :: path) (hlast.tail hrefers) site]
      exact bind_congr fun target => h.linkRow hlast target

theorem reference (huses : rows.Uses index) (site : Site) :
    reference other index site = reference rows index site :=
  h.linkReference (mostNesting + 1) [] ⟨index, huses, .refl⟩ site

theorem argumentList (hlist : rows.UsesList index) (table : Table) (user : Nat)
    (huses : ∀ value, rows.ListsArgument index value → rows.Uses value) :
    argumentList other index table user = argumentList rows index table user :=
  h.linkArguments hlist table user fun value site hlists => h.reference (huses value hlists) site

end References

section Definitions

theorem containedParameters :
    TypeGraph.containedParameters other = TypeGraph.containedParameters rows := by
  funext container table index
  rw [TypeGraph.containedParameters, TypeGraph.containedParameters, h.index, h.range]
  obtain ⟨_, _, _, _, _, rfl⟩ := h.same
  rfl

theorem listedReferences {indices : Array Int} {start count : Int} {target table : Table}
    {site : Site} {listed : List Nat} (hsize : rows.count target = indices.size)
    (hrange : Bounds.range rows start count target site = .ok listed)
    (huses : ∀ value, Lists indices start count value → rows.Uses value) :
    TypeGraph.listedReferences other indices table listed =
      TypeGraph.listedReferences rows indices table listed := by
  refine mapM_congr fun place hplace => ?_
  obtain ⟨value, hvalue, -, hlists⟩ := exists_value_of_range indices hrange hsize hplace
  rw [hvalue, Option.getD_some]
  exact h.reference (huses value hlists) _

theorem makeType (index : Nat) {row : TypeRow} (hrow : row ∈ rows.types) :
    TypeGraph.makeType other index row = TypeGraph.makeType rows index row := by
  obtain ⟨_, _, _, _, _, rfl⟩ := h.same
  simp only [TypeGraph.makeType, h.index, h.optionalIndex, h.range, h.strings,
    h.containedParameters]
  refine bind_congr fun base => bind_congr fun enclosing => bind_congr fun fields => ?_
  refine bind_congr fun methods => bind_congr fun properties => bind_congr fun nested => ?_
  refine liftBind_congr fun listed hlisted => bind_congr fun name => bind_congr fun space => ?_
  rw [h.listedReferences rfl hlisted fun value => .interface hrow]

theorem makeModule : TypeGraph.makeModule other = TypeGraph.makeModule rows := by
  funext index row
  simp only [TypeGraph.makeModule, h.range, h.strings]

theorem makeGenericParameter (index : Nat) {row : GenericParameterRow}
    (hrow : row ∈ rows.genericParameters) :
    TypeGraph.makeGenericParameter other index row =
      TypeGraph.makeGenericParameter rows index row := by
  obtain ⟨_, _, _, _, _, rfl⟩ := h.same
  simp only [TypeGraph.makeGenericParameter, h.index, h.range, h.strings]
  refine bind_congr fun container => bind_congr fun owner => ?_
  refine liftBind_congr fun listed hlisted => bind_congr fun name => ?_
  rw [h.listedReferences rfl hlisted fun value => .constraint hrow]

theorem makeParameter {place : Nat} {row : ParameterRow}
    (hrow : rows.parameters[place]? = some row) (huses : rows.Uses row.type) :
    TypeGraph.makeParameter other place = TypeGraph.makeParameter rows place := by
  obtain ⟨_, _, _, _, _, rfl⟩ := h.same
  simp only [TypeGraph.makeParameter, hrow, Option.getD_some, h.strings, h.reference huses]

theorem makeMethod (index : Nat) {row : MethodRow} (hrow : row ∈ rows.methods) :
    TypeGraph.makeMethod other index row = TypeGraph.makeMethod rows index row := by
  simp only [TypeGraph.makeMethod, h.index, h.range, h.strings, h.containedParameters,
    h.reference (.returned hrow)]
  refine bind_congr fun declaringType => liftBind_congr fun listed hlisted => ?_
  have hparameters : ∀ place ∈ listed,
      TypeGraph.makeParameter other place = TypeGraph.makeParameter rows place := by
    intro place hplace
    obtain ⟨parameter, hparameter, -, hlists⟩ :=
      exists_value_of_range rows.parameters hlisted rfl hplace
    exact h.makeParameter hparameter (.parameter hrow hlists)
  rw [mapM_congr hparameters]

theorem makeField (types : Array TypeDefinition) (index : Nat) {row : FieldRow}
    (hrow : row ∈ rows.fields) :
    TypeGraph.makeField other types index row = TypeGraph.makeField rows types index row := by
  have huses : rows.Uses row.type := .field hrow
  simp only [TypeGraph.makeField, h.strings, h.reference huses]
  by_cases hneg : row.type < 0
  · -- The attributes would be those of row 0, but a negative index is reported before.
    rw [reference_of_neg rows hneg]
    rfl
  · obtain ⟨n, hn⟩ := Int.eq_ofNat_of_zero_le (Int.not_lt.mp hneg)
    rw [hn] at huses ⊢
    rw [Int.toNat_natCast, h.row_of_used ⟨_, huses, .refl⟩]

theorem makeDefault (index : Nat) {row : DefaultRow} (hrow : row ∈ rows.defaults) :
    TypeGraph.makeDefault other index row = TypeGraph.makeDefault rows index row := by
  obtain ⟨_, _, _, _, _, rfl⟩ := h.same
  simp only [TypeGraph.makeDefault, h.index]
  refine bind_congr fun field => ?_
  cases htype : Bounds.index rows row.type .typeReferences
      ⟨.fieldDefaultValues, index, "type_index"⟩ with
  | error fault => rfl
  | ok type =>
      have hdata := (Bounds.index_eq_ok_iff.mp htype).1
      have hkind := h.references (Or.inr ⟨row, hrow, hdata⟩)
      simp only [ok_bind, Link.row, hkind]

theorem makeProperty : TypeGraph.makeProperty other = TypeGraph.makeProperty rows := by
  funext types index
  obtain ⟨_, _, _, _, _, rfl⟩ := h.same
  simp only [TypeGraph.makeProperty, h.strings]

theorem makeProperties : TypeGraph.makeProperties other = TypeGraph.makeProperties rows := by
  funext types
  rw [TypeGraph.makeProperties, TypeGraph.makeProperties, h.makeProperty]
  obtain ⟨_, _, _, _, _, rfl⟩ := h.same
  rfl

theorem makeMethodSpec (index : Nat) {row : MethodSpecRow} (hrow : row ∈ rows.methodSpecs) :
    TypeGraph.makeMethodSpec other index row = TypeGraph.makeMethodSpec rows index row := by
  simp only [TypeGraph.makeMethodSpec, h.index,
    h.argumentList (.classArguments hrow) _ _ fun value => .classArgument hrow,
    h.argumentList (.methodArguments hrow) _ _ fun value => .methodArgument hrow]

theorem link : TypeGraph.link other = TypeGraph.link rows := by
  have htypes := forRows_congr fun index _ => h.makeType index
  have hparameters := forRows_congr fun index _ => h.makeGenericParameter index
  have hmethods := forRows_congr fun index _ => h.makeMethod index
  have hfields := fun types => forRows_congr fun index _ => h.makeField types index
  have hspecs := forRows_congr fun index _ => h.makeMethodSpec index
  have hdefaults : ∀ entry ∈ rows.defaults.toList.zipIdx,
      (liftM (TypeGraph.makeDefault other entry.2 entry.1) : Link (Nat × Constant)) =
        liftM (TypeGraph.makeDefault rows entry.2 entry.1) := by
    intro entry hentry
    rw [h.makeDefault entry.2 (Array.mem_toList_iff.mp (List.fst_mem_of_mem_zipIdx hentry))]
  have hdefaults := mapM_congr hdefaults
  obtain ⟨_, _, _, _, _, rfl⟩ := h.same
  simp only [TypeGraph.link, htypes, h.makeModule, hparameters, hmethods, hfields, hdefaults,
    h.makeProperties, hspecs]
  rfl

end Definitions

end Rows.Agree

end TypeAtlas
