import TypeAtlas.Proofs.Linking.Definitions
import TypeAtlas.Proofs.Linking.Ranges
import TypeAtlas.Proofs.Linking.Reads
import TypeAtlas.Proofs.Linking.Repeats

namespace TypeAtlas

open Links TypeGraph

/-- Following a relation between rows comes to an end. The index -1 stands for no type. -/
inductive Rows.ChainEnds (rows : Rows) (relation : TypeRow → Int) : Int → Prop
  | last : Rows.ChainEnds rows relation Bounds.noIndex
  | next {index : Int} {row : TypeRow} (hrow : valueAt? rows.types index = some row)
      (h : Rows.ChainEnds rows relation (relation row)) : Rows.ChainEnds rows relation index

namespace Chain

theorem checkTypes_isOk {types : Array TypeDefinition} {relation : TypeDefinition → Option Nat}
    (phrase : String) (hends : ∀ start < types.size, Ends (step types relation) (some start)) :
    checkTypes types relation phrase = .ok () := by
  have hnext : ∀ type, (step types relation type).isSome = true → type < types.size :=
    fun _ => lt_of_step
  rcases check_ends_or_metTwice hnext with ⟨hok, -⟩ | ⟨start, _, -, hleast, -⟩
  · rw [checkTypes, hok]
    rfl
  · exact absurd (hends start hleast.1.1) hleast.1.2

end Chain

section Types

variable {rows : Rows} {types : Array TypeDefinition} {relation : TypeRow → Int}
  {made : TypeDefinition → Option Nat}

theorem optionalIndex_eq_ok {value : Int} {target : Table} {site : Site} {found : Option Nat}
    (h : Bounds.optionalIndex rows value target site = .ok found) :
    value = Bounds.noIndex ∧ found = none ∨ ∃ n : Nat, value = n ∧ found = some n := by
  unfold Bounds.optionalIndex at h
  split at h
  · next hnone => exact Or.inl ⟨hnone, (Except.ok.inj h).symm⟩
  · cases hindex : Bounds.index rows value target site with
    | error fault =>
        rw [hindex] at h
        cases h
    | ok n =>
        rw [hindex] at h
        exact Or.inr ⟨n, (Bounds.index_eq_ok_iff.mp hindex).1, (Except.ok.inj h).symm⟩

/-- A relation between types is made from the one between their rows. -/
def MadeRelation (rows : Rows) (types : Array TypeDefinition) (relation : TypeRow → Int)
    (made : TypeDefinition → Option Nat) : Prop :=
  MadeFrom rows.types types fun _ row type =>
    ∃ site, Bounds.optionalIndex rows (relation row) .typeDefinitions site = .ok (made type)

theorem ends_of_chainEnds (hmade : MadeRelation rows types relation made) {index : Int}
    (h : rows.ChainEnds relation index) {site : Site} {found : Option Nat}
    (hfound : Bounds.optionalIndex rows index .typeDefinitions site = .ok found) :
    Chain.Ends (Chain.step types made) found := by
  induction h generalizing site found with
  | last =>
      rcases optionalIndex_eq_ok hfound with ⟨-, rfl⟩ | ⟨n, hn, -⟩
      · exact .none
      · simp only [Bounds.noIndex] at hn
        omega
  | @next index row hrow _ ih =>
      rcases optionalIndex_eq_ok hfound with ⟨rfl, -⟩ | ⟨n, rfl, rfl⟩
      · cases hrow
      · obtain ⟨type, htype⟩ := hmade.exists_value hrow
        obtain ⟨site, hnext⟩ := hmade.related hrow htype
        refine .some ?_
        rw [Chain.step, htype]
        exact ih hnext

theorem checkTypes_of_chainEnds (hmade : MadeRelation rows types relation made)
    (hends : ∀ row ∈ rows.types, rows.ChainEnds relation (relation row)) (phrase : String) :
    Chain.checkTypes types made phrase = .ok () := by
  refine Chain.checkTypes_isOk phrase fun start hstart => ?_
  obtain ⟨row, hrow, site, hnext⟩ := hmade.exists_row (Array.getElem?_eq_getElem hstart)
  refine .some ?_
  rw [Chain.step, Array.getElem?_eq_getElem hstart]
  exact ends_of_chainEnds hmade (hends row (Array.mem_of_getElem? hrow)) hnext

end Types

open Links TypeGraph

namespace Rows

/-- The row of a type lists another one among its nested types. -/
def Contains (rows : Rows) (outer inner : Nat) : Prop :=
  ∃ row, rows.types[outer]? = some row ∧
    Lists rows.nestedTypes row.nestedStart row.nestedCount (inner : Int)

/-- The row of a type names another one as its enclosing type. -/
def Encloses (rows : Rows) (outer inner : Nat) : Prop :=
  ∃ row, rows.types[inner]? = some row ∧ row.enclosing = outer

end Rows

namespace TypeGraph

/-- The range of nested types of a type lists another one. -/
def Contains (graph : TypeGraph) (outer inner : Nat) : Prop :=
  ∃ type, graph.types[outer]? = some type ∧ inner ∈ type.nestedTypes

/-- A type has another one as its enclosing type. -/
def Encloses (graph : TypeGraph) (outer inner : Nat) : Prop :=
  Chain.step graph.types TypeDefinition.enclosing inner = some outer

end TypeGraph

section Relations

variable {α : Type} {contains encloses : α → α → Prop} {first last : α}

theorem transGen_of_steps (h : Relation.TransGen contains first last)
    (hsteps : ∀ outer inner, Relation.ReflTransGen contains first outer → contains outer inner →
      Relation.ReflTransGen contains inner last → encloses outer inner) :
    Relation.TransGen encloses first last := by
  induction h with
  | single hstep => exact .single (hsteps _ _ .refl hstep .refl)
  | tail hbefore hstep ih =>
      refine .tail (ih fun outer inner hreach hcontains hrest => ?_) ?_
      · exact hsteps outer inner hreach hcontains (hrest.tail hstep)
      · exact hsteps _ _ hbefore.to_reflTransGen hstep .refl

/-- A cycle of one relation has a step that does not belong to another one without cycles. -/
theorem exists_step_of_cycle (hacyclic : ∀ value, ¬Relation.TransGen encloses value value)
    (h : Relation.TransGen contains first first) :
    ∃ outer inner, Relation.ReflTransGen contains first outer ∧ contains outer inner ∧
      Relation.ReflTransGen contains inner first ∧ ¬encloses outer inner := by
  -- If each step belonged to the other relation, so would the whole cycle.
  by_contra hall
  refine hacyclic first (transGen_of_steps h fun outer inner hreach hcontains hrest => ?_)
  by_contra hnot
  exact hall ⟨outer, inner, hreach, hcontains, hrest, hnot⟩

end Relations

section Making

variable {rows : Rows} {links : Links} {graph : TypeGraph} {types : Array TypeDefinition}
  {relation : TypeRow → Int} {made : TypeDefinition → Option Nat} {outer inner : Nat}

theorem Holds.mem_iff {α : Type} {start count : Int} {stands : Int → α → Prop} {entries : List α}
    {entry : α} (h : Holds start count stands entries)
    (hunique : ∀ place entry other, stands place entry → stands place other → entry = other) :
    entry ∈ entries ↔ ∃ i : Nat, (i : Int) < count ∧ stands (start + i) entry := by
  have hlength := h.length
  constructor
  · intro hmem
    obtain ⟨i, hlt, hentry⟩ := List.getElem_of_mem hmem
    exact ⟨i, by omega, h.stands (List.getElem?_eq_some_iff.mpr ⟨hlt, hentry⟩)⟩
  · rintro ⟨i, hi, hstands⟩
    have hlt : i < entries.length := by omega
    have hfound := h.stands (List.getElem?_eq_getElem hlt)
    rw [hunique _ _ _ hstands hfound]
    exact List.getElem_mem hlt

theorem contains_iff_rows (hlinked : graph.Linked rows links) :
    graph.Contains outer inner ↔ rows.Contains outer inner := by
  have hmem : ∀ {row type}, rows.types[outer]? = some row → graph.types[outer]? = some type →
      (inner ∈ type.nestedTypes ↔
        Lists rows.nestedTypes row.nestedStart row.nestedCount (inner : Int)) := by
    intro row type hrow htype
    have hranged := typeRanged_of_linked hlinked (hlinked.types.related hrow htype)
    refine hranged.nestedTypes.mem_iff fun place entry other hentry hother => ?_
    exact Int.ofNat.inj (Option.some.inj (hentry.symm.trans hother))
  constructor
  · rintro ⟨type, htype, hnested⟩
    obtain ⟨row, hrow, -⟩ := hlinked.types.exists_row htype
    exact ⟨row, hrow, (hmem hrow htype).mp hnested⟩
  · rintro ⟨row, hrow, hlists⟩
    obtain ⟨type, htype⟩ := hlinked.types.exists_value hrow
    exact ⟨type, htype, (hmem hrow htype).mpr hlists⟩

theorem step_eq_some_iff (hmade : MadeRelation rows types relation made) :
    Chain.step types made inner = some outer ↔
      ∃ row, rows.types[inner]? = some row ∧ relation row = outer := by
  have hmem : ∀ {row type}, rows.types[inner]? = some row → types[inner]? = some type →
      (made type = some outer ↔ relation row = outer) := by
    intro row type hrow htype
    obtain ⟨site, hindex⟩ := hmade.related hrow htype
    rcases optionalIndex_eq_ok hindex with ⟨hnone, hfound⟩ | ⟨n, hn, hfound⟩
    · simp [hnone, hfound, Bounds.noIndex]
    · rw [hn, hfound, Option.some.injEq, Int.natCast_inj]
  rw [Chain.step, Option.bind_eq_some_iff]
  constructor
  · rintro ⟨type, htype, hother⟩
    obtain ⟨row, hrow, -⟩ := hmade.exists_row htype
    exact ⟨row, hrow, (hmem hrow htype).mp hother⟩
  · rintro ⟨row, hrow, hother⟩
    obtain ⟨type, htype⟩ := hmade.exists_value hrow
    exact ⟨type, htype, (hmem hrow htype).mpr hother⟩

theorem madeRelation_enclosing
    (htypes : MadeFrom rows.types types fun index row type =>
      TypeLinked rows index row type links) :
    MadeRelation rows types TypeRow.enclosing TypeDefinition.enclosing :=
  htypes.imp fun _ _ _ h => ⟨_, h.enclosing⟩

end Making

section Rejecting

variable {rows : Rows} {type : Nat}

/-- Types of which one is enclosed in itself are rejected: a row of the types has a fault of its
own, or the chain of enclosing types is reported. -/
inductive NestingFault (rows : Rows) (fault : Fault) : Prop
  | type (h : StateT.run (forRows rows.types (makeType rows)) {} = .error fault)
  | cyclic {types : Array TypeDefinition} {links : Links} {type : Nat}
      (htypes : StateT.run (forRows rows.types (makeType rows)) {} = .ok (types, links))
      (hcycle : Relation.TransGen rows.Encloses type type)
      (hfault : fault = Chain.cyclic types "is nested in" type)

theorem transGen_of_follow {next : Nat → Option Nat} {steps other : Nat}
    (h : Chain.follow next (steps + 1) (some type) = some other) :
    Relation.TransGen (fun outer inner => next inner = some outer) other type := by
  induction steps generalizing other with
  | zero => exact .single h
  | succ steps ih =>
      rw [Chain.follow_succ] at h
      obtain ⟨passed, hpassed, hnext⟩ := Option.bind_eq_some_iff.mp h
      exact .head hnext (ih hpassed)

theorem Chain.MetTwice.transGen {next : Nat → Option Nat} {start : Nat}
    (h : Chain.MetTwice next start type) :
    Relation.TransGen (fun outer inner => next inner = some outer) type type := by
  obtain ⟨steps, hpos, hreturn⟩ := h.exists_return
  obtain ⟨before, rfl⟩ := Nat.exists_eq_succ_of_ne_zero hpos.ne'
  exact transGen_of_follow hreturn

theorem checkTypes_of_cycle {types : Array TypeDefinition}
    (hmade : MadeRelation rows types TypeRow.enclosing TypeDefinition.enclosing)
    (hcycle : Relation.TransGen rows.Encloses type type) (phrase : String) :
    ∃ other, Chain.checkTypes types TypeDefinition.enclosing phrase =
        .error (Chain.cyclic types phrase other) ∧
      Relation.TransGen rows.Encloses other other := by
  have hencloses : rows.Encloses = fun outer inner =>
      Chain.step types TypeDefinition.enclosing inner = some outer :=
    funext fun outer => funext fun inner => propext (step_eq_some_iff hmade).symm
  have hbound : ∀ type, (Chain.step types TypeDefinition.enclosing type).isSome = true →
      type < types.size := fun _ => Chain.lt_of_step
  rw [hencloses] at hcycle ⊢
  rcases Chain.check_ends_or_metTwice hbound with
    ⟨-, hends⟩ | ⟨start, other, herror, -, hmet⟩
  · obtain ⟨inner, -, hinner⟩ := Relation.TransGen.tail'_iff.mp hcycle
    have hlt := hbound type (hinner ▸ rfl)
    exact absurd (Relation.transGen_swap.mpr hcycle) ((hends type hlt).not_transGen rfl)
  · exact ⟨other, by rw [Chain.checkTypes, herror]; rfl, hmet.transGen⟩

theorem exists_nestingFault (hcycle : Relation.TransGen rows.Encloses type type) :
    ∃ fault, StateT.run (link rows) {} = .error fault ∧ NestingFault rows fault := by
  rw [link, StateT.run_bind]
  cases hrun : StateT.run (forRows rows.types (makeType rows)) {} with
  | error fault => exact ⟨fault, rfl, .type hrun⟩
  | ok made =>
      obtain ⟨types, links⟩ := made
      have htypes := (forRows_ensures TypeLinked.lasting makeType_ensures (valid_empty rows)
        types links hrun).2.2
      obtain ⟨other, herror, hother⟩ :=
        checkTypes_of_cycle (madeRelation_enclosing htypes) hcycle "is nested in"
      refine ⟨_, ?_, .cyclic hrun hother rfl⟩
      rw [ok_bind, herror]
      rfl

end Rejecting

namespace TypeGraph

/-- In a graph that has been built, nested types and enclosing types are those of the rows. No type
is enclosed in itself, and a cycle of nested types passes one whose enclosing type is not the type
that lists it. Rows in which a type is enclosed in itself are rejected. -/
theorem containment_of_build (metadata : Metadata) :
    (∀ graph, (build metadata).outcome.1 = .ok graph →
        (∀ outer inner, graph.Contains outer inner ↔ metadata.rows.Contains outer inner) ∧
        (∀ outer inner, graph.Encloses outer inner ↔ metadata.rows.Encloses outer inner) ∧
        (∀ type, ¬Relation.TransGen graph.Encloses type type) ∧
        ∀ type, Relation.TransGen graph.Contains type type →
          ∃ outer inner, Relation.ReflTransGen graph.Contains type outer ∧
            graph.Contains outer inner ∧ Relation.ReflTransGen graph.Contains inner type ∧
            ¬graph.Encloses outer inner) ∧
      ∀ type, Relation.TransGen metadata.rows.Encloses type type →
        ∃ fault, (build metadata).outcome.1 = .error fault ∧
          NestingFault metadata.rows fault := by
  have hrejected : ∀ type, Relation.TransGen metadata.rows.Encloses type type →
      ∃ fault, (build metadata).outcome.1 = .error fault ∧ NestingFault metadata.rows fault := by
    intro type hcycle
    obtain ⟨fault, hrun, hfault⟩ := exists_nestingFault hcycle
    refine ⟨fault, ?_, hfault⟩
    rw [outcome_build, ofRows, hrun]
    rfl
  refine ⟨fun graph hgraph => ?_, hrejected⟩
  obtain ⟨links, hlinked⟩ := exists_linked_of_build hgraph
  have hencloses : ∀ outer inner, graph.Encloses outer inner ↔
      metadata.rows.Encloses outer inner :=
    fun outer inner => step_eq_some_iff (madeRelation_enclosing hlinked.types)
  have hacyclic : ∀ type, ¬Relation.TransGen graph.Encloses type type := by
    intro type hcycle
    obtain ⟨fault, herror, -⟩ := hrejected type (hcycle.lift id fun _ _ => (hencloses _ _).mp)
    cases hgraph.symm.trans herror
  exact ⟨fun _ _ => contains_iff_rows hlinked, hencloses, hacyclic,
    fun _ hcycle => exists_step_of_cycle hacyclic hcycle⟩

/-- A blob with one type, which lists itself as a nested type and names its enclosing type. -/
def selfNestedBlob (enclosing : Int) : Metadata :=
  { smallBlob with
    tables := [
      (.nestedTypes, #[[0]]),
      (.typeDefinitions, #[
        [-1, -1, 0, enclosing, -1, -1, -1, 0, 0, 0, 0, 0, 0, 0, 0, 0, 0, 0, 0, 0, 1, 0, 0, 0, 0,
          0]])] }

theorem build_selfNestedBlob : ∃ graph, (build (selfNestedBlob (-1))).outcome.1 = .ok graph ∧
    (graph.types[0]?).map TypeDefinition.nestedTypes = some [0] :=
  exists_build_of_map (by cbv)

/-- The type that lists itself has a graph as long as it does not name itself as its enclosing
type. -/
theorem containment_selfNestedBlob :
    (∃ graph, (build (selfNestedBlob (-1))).outcome.1 = .ok graph ∧ graph.Contains 0 0 ∧
      ¬graph.Encloses 0 0) ∧
      ∃ fault, (build (selfNestedBlob 0)).outcome.1 = .error fault ∧
        NestingFault (selfNestedBlob 0).rows fault := by
  have hrow : ((selfNestedBlob 0).rows.types[0]?).map TypeRow.enclosing = some 0 := by cbv
  have hself : (selfNestedBlob 0).rows.Encloses 0 0 := Option.map_eq_some_iff.mp hrow
  obtain ⟨graph, hgraph, hnested⟩ := build_selfNestedBlob
  obtain ⟨type, htype, hlist⟩ := Option.map_eq_some_iff.mp hnested
  obtain ⟨_, _, hacyclic, _⟩ := (containment_of_build (selfNestedBlob (-1))).1 graph hgraph
  refine ⟨⟨graph, hgraph, ⟨type, htype, ?_⟩, fun hself => hacyclic 0 (.single hself)⟩,
    (containment_of_build (selfNestedBlob 0)).2 0 (.single hself)⟩
  rw [hlist]
  exact List.mem_singleton_self 0

end TypeGraph

end TypeAtlas
