import TypeAtlas.Proofs.Linking.Building
import TypeAtlas.Proofs.Linking.Containment
import TypeAtlas.Proofs.Linking.Defaults
import TypeAtlas.Proofs.Linking.Descent
import TypeAtlas.Proofs.Linking.Reads
/-!
Sound rows have a graph: if every index and every range that linking reads lies inside of its table,
chains of types end, default values can be decoded, and every row that a definition uses stands for
a tree that is not nested too deep, then linking does not fail. The rows that are open while a row
is linked stand for greater trees than it does, so none of them is met again, whatever has been
linked before.
-/

namespace TypeAtlas

open Links Link TypeGraph

namespace Rows

/-- Rows that refer to nothing that is missing, too deep or without an end. -/
structure Sound (rows : Rows) : Prop where
  indices : ∀ {value : Int} {target : Table} {site : Site}, rows.ReadsIndex value target site →
    0 ≤ value ∧ value < rows.count target
  ranges : ∀ {start count : Int} {target : Table} {site : Site},
    rows.ReadsRange start count target site → 0 ≤ count ∧ rows.Meets start count target
  bases : ∀ row ∈ rows.types, rows.ChainEnds TypeRow.base row.base
  enclosings : ∀ row ∈ rows.types, rows.ChainEnds TypeRow.enclosing row.enclosing
  accessors : ∀ {place : Nat} {row : TypeRow} {property : PropertyRow}, row ∈ rows.types →
    InRange row.propertyStart row.propertyCount place →
      rows.properties[place]? = some property →
        ∀ accessor, accessor = property.getter ∨ accessor = property.setter →
          accessor = Bounds.noIndex ∨ 0 ≤ accessor ∧ accessor < row.methodCount
  defaults : ∀ {row : DefaultRow} {type : ReferenceRow}, row ∈ rows.defaults →
    valueAt? rows.references row.type = some type →
      Constant.Decodable rows.release rows.defaultData type.kind row.data
  references : ∀ {index : Int}, rows.Uses index →
    ∃ tree, rows.Unfolds index tree ∧ tree.nesting ≤ mostNesting

end Rows

section Checks

variable {rows : Rows}

theorem index_eq_ok {value : Int} {target : Table} (site : Site)
    (h : 0 ≤ value ∧ value < rows.count target) :
    ∃ n : Nat, value = n ∧ Bounds.index rows value target site = .ok n :=
  ⟨value.toNat, by omega, Bounds.index_eq_ok_iff.mpr ⟨by omega, by omega⟩⟩

theorem range_eq_ok {start count : Int} {target : Table} (site : Site)
    (h : rows.Meets start count target) :
    Bounds.range rows start count target site = .ok (List.range' start.toNat count.toNat) :=
  Bounds.range_eq_ok_iff.mpr ⟨h, rfl⟩

end Checks

namespace Link

variable {rows : Rows} {index : Int} {tree : TypeTree}

/-- A computation that never fails, whatever has been linked before. -/
abbrev Answers {α : Type} (action : Link α) : Prop :=
  FailsOnly action fun _ => False

/-- A row stands for a greater tree. -/
def Above (rows : Rows) (tree : TypeTree) (row : Nat) : Prop :=
  ∃ outer, rows.Unfolds row outer ∧ sizeOf tree < sizeOf outer

theorem Above.of_lt {part : TypeTree} {row : Nat} (h : Above rows tree row)
    (hlt : sizeOf part < sizeOf tree) : Above rows part row := by
  obtain ⟨outer, houter, hlt'⟩ := h
  exact ⟨outer, houter, hlt.trans hlt'⟩

theorem not_above {row : Nat} (htree : rows.Unfolds row tree) : ¬Above rows tree row := by
  rintro ⟨outer, houter, hlt⟩
  rw [htree.unique houter] at hlt
  exact Nat.lt_irrefl _ hlt

theorem exists_row_of_unfolds {n : Nat} (h : rows.Unfolds n tree) :
    ∃ row, rows.references[n]? = some row := by
  obtain ⟨hrow, -⟩ := h
  exact ⟨_, hrow⟩

theorem index_of_unfolds (site : Site) (h : rows.Unfolds index tree) :
    ∃ n : Nat, index = n ∧ Bounds.index rows index .typeReferences site = .ok n := by
  obtain ⟨hrow, -⟩ := h
  obtain ⟨n, hn, hvalue⟩ := valueAt?_eq_some_iff.mp hrow
  exact ⟨n, hn, Bounds.index_eq_ok_iff.mpr ⟨hn, (Array.getElem?_eq_some_iff.mp hvalue).1⟩⟩

theorem ElementRun.exists_part {linked : Std.HashMap Nat Nat} {path chain : List Nat}
    {current : Nat} {result : Except Fault (List Nat × Nat)}
    (hrun : ElementRun rows linked path chain current result) (hused : rows.Used current)
    (htree : rows.Unfolds current tree)
    (habove : ∀ row, row ∈ path ∨ row ∈ chain → Above rows tree row) :
    ∃ found last part, result = .ok (found, last) ∧ rows.Used (last : Nat) ∧
      rows.Unfolds last part ∧ part.nesting = tree.nesting ∧ sizeOf part ≤ sizeOf tree := by
  induction hrun generalizing tree with
  | @linked chain current hlinked => exact ⟨chain, current, tree, rfl, hused, htree, rfl, le_rfl⟩
  | @met chain current hlinked hmet => exact absurd (habove current hmet) (not_above htree)
  | @leaf chain current hlinked hnew hrole =>
      exact ⟨chain, current, tree, rfl, hused, htree, rfl, le_rfl⟩
  | @outside chain current fault hlinked hnew hrole hnext =>
      obtain ⟨row, hrow⟩ := exists_row_of_unfolds htree
      rw [row_eq hrow] at hrole hnext
      obtain ⟨inner, hinner, -, -⟩ := exists_element_tree htree hrow hrole
      obtain ⟨n, hn⟩ := index_of_unfolds ⟨.typeReferences, current, "data"⟩ hinner
      cases hnext.symm.trans hn.2
  | @step chain current next result hlinked hnew hrole hnext _ ih =>
      obtain ⟨row, hrow⟩ := exists_row_of_unfolds htree
      rw [row_eq hrow] at hrole hnext
      obtain ⟨inner, hinner, hnesting, hsize⟩ := exists_element_tree htree hrow hrole
      have hrefers : rows.Refers current row.data := .element hrow hrole
      rw [(Bounds.index_eq_ok_iff.mp hnext).1] at hinner hrefers
      have habove' : ∀ row, row ∈ path ∨ row ∈ current :: chain → Above rows inner row := by
        rintro row (hrow | hrow)
        · exact (habove row (Or.inl hrow)).of_lt hsize
        · rcases List.mem_cons.mp hrow with rfl | hrow
          · exact ⟨tree, htree, hsize⟩
          · exact (habove row (Or.inr hrow)).of_lt hsize
      obtain ⟨found, last, part, hresult, hlast, hpart, hnesting', hle⟩ :=
        ih (hused.tail hrefers) hinner habove'
      exact ⟨found, last, part, hresult, hlast, hpart, hnesting'.trans hnesting,
        hle.trans hsize.le⟩

theorem linkWith_answers {path : List Nat} {leaf : Nat → Link Nat} (hused : rows.Used index)
    (htree : rows.Unfolds index tree) (habove : ∀ row ∈ path, Above rows tree row)
    (hleaf : ∀ (last : Nat) part, rows.Used last → rows.Unfolds last part →
      part.nesting = tree.nesting → sizeOf part ≤ sizeOf tree → Answers (leaf last))
    (site : Site) : Answers (linkWith rows path leaf index site) := by
  obtain ⟨first, rfl, hfirst⟩ := index_of_unfolds site htree
  refine .liftBind hfirst (.getBind fun links => ?_)
  have hrun : ElementRun rows links.linked path [] first _ :=
    elementRun_of_fuel List.nodup_nil (by simp) (Bounds.index_eq_ok_iff.mp hfirst).2
      (Nat.lt_succ_self _)
  obtain ⟨chain, last, part, hresult, hlast, hpart, hnesting, hsize⟩ :=
    hrun.exists_part hused htree fun row hrow => habove row (by simpa using hrow)
  refine .liftBind hresult (.getBind fun after => ?_)
  split
  · exact linkChain_failsOnly rows chain _
  · exact .bind (hleaf last part hlast hpart hnesting hsize) fun number =>
      linkChain_failsOnly rows chain number

section Arguments

variable {next : Int → Site → Link Nat}

theorem linkArguments_answers {table : Table} {user : Nat}
    (hindex : index ≠ Bounds.noIndex → 0 ≤ index ∧ index < rows.count .genericInsts)
    (hrange : ∀ {list : Nat} {row : GenericInstRow}, index = list →
      rows.genericInsts[list]? = some row →
        rows.Meets row.argumentStart row.argumentCount .genericArguments)
    (hnext : ∀ argument, rows.ListsArgument index argument → ∀ site,
      Answers (next argument site)) :
    Answers (linkArguments rows next index table user) := by
  unfold linkArguments
  split
  · exact .pure _
  · next hsome =>
      obtain ⟨list, rfl, hlist⟩ := index_eq_ok ⟨table, user, "inst_index"⟩ (hindex hsome)
      have hlt : list < rows.genericInsts.size := (Bounds.index_eq_ok_iff.mp hlist).2
      have hrow : rows.genericInsts[list]? = some rows.genericInsts[list] :=
        Array.getElem?_eq_getElem hlt
      refine .liftBind hlist (.getBind fun links => ?_)
      split
      · exact .pure _
      · simp only [hrow, Option.getD_some]
        have hfound := range_eq_ok ⟨.genericInsts, list, "arguments"⟩ (hrange rfl hrow)
        refine .liftBind hfound (.bind (.mapM fun place hplace => ?_) fun numbers => ?_)
        · have hlt : place < rows.genericArguments.size := Bounds.lt_of_mem_range hfound hplace
          have hvalue : rows.genericArguments[place]? = some rows.genericArguments[place] :=
            Array.getElem?_eq_getElem hlt
          rw [hvalue, Option.getD_some]
          refine hnext _ ⟨_, hrow, ?_⟩ _
          exact lists_of_inRange (inRange_of_mem_range hfound hplace) hvalue
        · exact .bind .modify fun _ => .pure _

theorem usesClass_of_used {user : Nat} {row : ReferenceRow} {genericClass : Nat}
    (hused : rows.Used user) (hrow : rows.references[user]? = some row)
    (hrole : Kind.role row.kind = .instantiation) (hdata : row.data = genericClass) :
    rows.UsesClass genericClass :=
  ⟨user, row, hused, hrow, hrole, hdata⟩

theorem linkClass_answers (hsound : rows.Sound) {user : Nat} {row : ReferenceRow}
    (hused : rows.Used user) (hrow : rows.references[user]? = some row)
    (hrole : Kind.role row.kind = .instantiation)
    (hnext : ∀ argument, rows.Refers user argument → ∀ site, Answers (next argument site)) :
    Answers (linkClass rows next row.data user) := by
  have htable : (Kind.role row.kind).table? = some .genericClasses := congrArg Role.table? hrole
  obtain ⟨genericClass, hdata, hclass⟩ := index_eq_ok ⟨.typeReferences, user, "data"⟩
    (hsound.indices (.data hused hrow htable))
  have hlt : genericClass < rows.genericClasses.size := (Bounds.index_eq_ok_iff.mp hclass).2
  have hclassRow : rows.genericClasses[genericClass]? = some rows.genericClasses[genericClass] :=
    Array.getElem?_eq_getElem hlt
  have hclassUsed := usesClass_of_used hused hrow hrole hdata
  refine .liftBind hclass ?_
  simp only [hclassRow, Option.getD_some]
  obtain ⟨definition, -, hdefinition⟩ := index_eq_ok
    ⟨.genericClasses, genericClass, "type_definition_index"⟩
    (hsound.indices (.definition hclassUsed hclassRow))
  refine .liftBind hdefinition (.bind (linkArguments_answers ?_ ?_ ?_) fun arguments => ?_)
  · exact fun hsome => hsound.indices (.classList hclassUsed hclassRow hsome)
  · intro list inst hlist hinst
    have hlistUsed : rows.UsesList list := hlist ▸ .genericClass hclassUsed hclassRow
    exact (hsound.ranges (.arguments hlistUsed hinst)).2
  · intro argument hargument
    refine hnext argument (.argument hrow hrole ?_ hargument)
    rw [hdata]
    exact hclassRow
  · intro links fault hrun
    cases hrun

theorem leafTarget_answers (hsound : rows.Sound) {index : Nat} (hused : rows.Used index)
    (htree : rows.Unfolds index tree)
    (hnext : ∀ argument part, rows.Refers index argument → rows.Unfolds argument part →
      part.nesting < tree.nesting → sizeOf part < sizeOf tree → ∀ site,
        Answers (next argument site)) : Answers (leafTarget rows next index) := by
  obtain ⟨row, hrow⟩ := exists_row_of_unfolds htree
  unfold leafTarget
  dsimp only
  rw [row_eq hrow]
  have hindex : ∀ {target : Table}, (Kind.role row.kind).table? = some target → ∃ n : Nat,
      row.data = n ∧ Bounds.index rows row.data target ⟨.typeReferences, index, "data"⟩ = .ok n :=
    fun htable => index_eq_ok _ (hsound.indices (.data hused hrow htable))
  cases hrole : Kind.role row.kind with
  | element => exact .pure _
  | plain => exact .pure _
  | definition =>
      obtain ⟨n, -, hn⟩ := hindex (congrArg Role.table? hrole)
      exact .liftBind hn (.pure _)
  | parameter =>
      obtain ⟨n, -, hn⟩ := hindex (congrArg Role.table? hrole)
      exact .liftBind hn (.pure _)
  | instantiation =>
      refine .bind (linkClass_answers hsound hused hrow hrole ?_) fun _ => .pure _
      intro argument hrefers
      cases hrefers with
      | element hrow' hrole' =>
          obtain rfl := Option.some.inj (hrow'.symm.trans hrow)
          cases hrole.symm.trans hrole'
      | argument hrow' hrole' hclass hargument =>
          obtain ⟨part, hpart, hnesting, hsize⟩ :=
            exists_argument_tree htree hrow' hrole' hclass hargument
          exact hnext argument part (.argument hrow' hrole' hclass hargument) hpart hnesting hsize

end Arguments

/-- Linking a row that stands for a tree answers, if there is more room than the tree is nested deep
and the rows that are open stand for greater trees. -/
theorem linkReference_answers (hsound : rows.Sound) {room : Nat} {path : List Nat}
    (hused : rows.Used index) (htree : rows.Unfolds index tree) (hroom : tree.nesting < room)
    (habove : ∀ row ∈ path, Above rows tree row) (site : Site) :
    Answers (linkReference rows room path index site) := by
  -- An argument is nested less deep than its instance, and the instance is open above it.
  induction room generalizing path index tree site with
  | zero => exact absurd hroom (Nat.not_lt_zero _)
  | succ room ih =>
      refine linkWith_answers hused htree habove ?_ site
      intro last part hlast hpart hnesting hsize
      refine .bind (leafTarget_answers hsound hlast hpart ?_) fun target =>
        linkRow_failsOnly rows last target
      intro argument inner hrefers hinner hless hsmaller site
      have habove' : ∀ row ∈ last :: path, Above rows inner row := by
        intro row hrow
        rcases List.mem_cons.mp hrow with rfl | hrow
        · exact ⟨part, hpart, hsmaller⟩
        · exact (habove row hrow).of_lt (Nat.lt_of_lt_of_le hsmaller hsize)
      exact ih (hlast.tail hrefers) hinner (by omega) habove' site

theorem reference_answers (hsound : rows.Sound) (huses : rows.Uses index) (site : Site) :
    Answers (reference rows index site) := by
  obtain ⟨tree, htree, hnesting⟩ := hsound.references huses
  exact linkReference_answers hsound ⟨index, huses, .refl⟩ htree (Nat.lt_succ_of_le hnesting)
    (by simp) site

theorem argumentList_answers (hsound : rows.Sound) {table : Table} {user : Nat}
    (hlist : rows.UsesList index)
    (hindex : index ≠ Bounds.noIndex → 0 ≤ index ∧ index < rows.count .genericInsts)
    (huses : ∀ argument, rows.ListsArgument index argument → rows.Uses argument) :
    Answers (argumentList rows index table user) := by
  refine linkArguments_answers hindex ?_ fun argument hargument =>
    reference_answers hsound (huses argument hargument)
  rintro list row rfl hrow
  exact (hsound.ranges (.arguments hlist hrow)).2

end Link

end TypeAtlas
