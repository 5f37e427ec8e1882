import TypeAtlas.Proofs.Linking.Cycles
import TypeAtlas.Proofs.Linking.Reads
/-!
Descents: following type references down from a row passes some generic instances. A tree is nested
as deep as its longest descent. If each row on the way is used once only, then every other descent
to its end has come the same way.
-/

namespace TypeAtlas

mutual

/-- How deep the generic instances of a tree are nested. An instance without arguments nests
nothing. -/
def TypeTree.nesting : TypeTree → Nat
  | .element _ inner => inner.nesting
  | .instantiation _ _ arguments => TypeTree.argumentNesting arguments
  | .definition _ _ | .parameter _ _ | .plain _ => 0

/-- One more than the deepest of some arguments, or nothing. -/
def TypeTree.argumentNesting : List TypeTree → Nat
  | [] => 0
  | tree :: trees => max (tree.nesting + 1) (TypeTree.argumentNesting trees)

end

theorem TypeTree.argumentNesting_le_iff {trees : List TypeTree} {bound : Nat} :
    argumentNesting trees ≤ bound ↔ ∀ tree ∈ trees, tree.nesting < bound := by
  induction trees with
  | nil => simp [argumentNesting]
  | cons tree trees ih =>
      rw [argumentNesting, max_le_iff, ih, List.forall_mem_cons, Nat.succ_le_iff]

theorem TypeTree.nesting_lt_argumentNesting {trees : List TypeTree} {tree : TypeTree}
    (h : tree ∈ trees) : tree.nesting < argumentNesting trees :=
  argumentNesting_le_iff.mp le_rfl tree h

section Parts

variable {rows : Rows} {index : Int} {tree : TypeTree} {row : ReferenceRow}

theorem exists_element_tree (h : rows.Unfolds index tree)
    (hrow : valueAt? rows.references index = some row)
    (hrole : Kind.role row.kind = .element) :
    ∃ inner, rows.Unfolds row.data inner ∧ inner.nesting = tree.nesting ∧
      sizeOf inner < sizeOf tree := by
  obtain ⟨inner, rfl, hinner⟩ := h.eq_element hrow hrole
  refine ⟨inner, hinner, by rw [TypeTree.nesting], ?_⟩
  simp only [TypeTree.element.sizeOf_spec]
  omega

theorem exists_argument_tree (h : rows.Unfolds index tree)
    (hrow : valueAt? rows.references index = some row)
    (hrole : Kind.role row.kind = .instantiation) {classRow : GenericClassRow} {argument : Int}
    (hclass : valueAt? rows.genericClasses row.data = some classRow)
    (hargument : rows.ListsArgument classRow.arguments argument) :
    ∃ part, rows.Unfolds argument part ∧ part.nesting < tree.nesting ∧
      sizeOf part < sizeOf tree := by
  obtain ⟨trees, part, hmem, rfl, hpart⟩ := h.eq_instantiation hrow hrole hclass hargument
  have hlt := List.sizeOf_lt_of_mem hmem
  refine ⟨part, hpart, ?_, ?_⟩
  · rw [TypeTree.nesting]
    exact TypeTree.nesting_lt_argumentNesting hmem
  · simp only [TypeTree.instantiation.sizeOf_spec]
    omega

end Parts

namespace Rows

/-- Linking the parts of a row opens a generic instance if the row is one. -/
def opens (rows : Rows) (index : Int) : Nat :=
  match valueAt? rows.references index with
  | some row => if Kind.role row.kind = .instantiation then 1 else 0
  | none => 0

/-- Following references down from a row, through rows with some property, passes some number of
generic instances on the way to another row. -/
inductive Descends (rows : Rows) (through : Int → Prop) (first : Int) : Nat → Int → Prop
  | refl : Descends rows through first 0 first
  | tail {depth : Nat} {index part : Int} (h : Descends rows through first depth index)
      (hrefers : rows.Refers index part) (hthrough : through part) :
      Descends rows through first (depth + rows.opens index) part

/-- A row that is no array and no pointer. -/
def IsLeaf (rows : Rows) (index : Int) : Prop :=
  ∃ row, valueAt? rows.references index = some row ∧ Kind.role row.kind ≠ .element

/-- A row that a definition uses by itself, or that two used rows refer to. -/
def Shared (rows : Rows) (index : Int) : Prop :=
  rows.Uses index ∨ ∃ user other, user ≠ other ∧ rows.Used user ∧ rows.Used other ∧
    rows.Refers user index ∧ rows.Refers other index

end Rows

section Descents

open Rows

variable {rows : Rows} {through other : Int → Prop} {first index part : Int} {depth : Nat}

theorem opens_of_role {row : ReferenceRow} (hrow : valueAt? rows.references index = some row) :
    rows.opens index = if Kind.role row.kind = .instantiation then 1 else 0 := by
  rw [opens, hrow]

theorem Rows.Uses.used (h : rows.Uses index) : rows.Used index :=
  ⟨index, h, .refl⟩

theorem Rows.Descends.imp (h : rows.Descends through first depth part)
    (himp : ∀ index, through index → other index) : rows.Descends other first depth part := by
  induction h with
  | refl => exact .refl
  | tail _ hrefers hthrough ih => exact .tail ih hrefers (himp _ hthrough)

theorem Rows.Descends.head (hrefers : rows.Refers first index) (hthrough : through index)
    (h : rows.Descends through index depth part) :
    rows.Descends through first (rows.opens first + depth) part := by
  induction h with
  | refl =>
      rw [Nat.add_comm]
      exact .tail .refl hrefers hthrough
  | tail _ hrefers' hthrough' ih =>
      rw [← Nat.add_assoc]
      exact .tail ih hrefers' hthrough'

theorem Rows.Descends.used (h : rows.Descends through first depth part) (hused : rows.Used first) :
    rows.Used part := by
  induction h with
  | refl => exact hused
  | tail _ hrefers _ ih => exact ih.tail hrefers

/-- A descent through rows that are not shared is the end of every descent from a definition to the
same row: each row on it has one row that refers to it only. -/
theorem Rows.Descends.le_of_not_shared {user : Int} {depth' : Nat}
    (h : rows.Descends (fun part => ¬rows.Shared part) index depth part)
    (h' : rows.Descends through user depth' part) (hused : rows.Used index)
    (huses : rows.Uses user) : depth ≤ depth' := by
  induction h generalizing depth' with
  | refl => exact Nat.zero_le _
  | @tail depth before part h hrefers hown ih =>
      cases h' with
      | refl => exact absurd (Or.inl huses) hown
      | @tail depth' before' _ h' hrefers' _ =>
          -- Only one used row refers to the part, so both descents have come through it.
          have hbefore : before = before' := by
            by_contra hne
            exact hown (Or.inr ⟨before, before', hne, h.used hused, h'.used huses.used, hrefers,
              hrefers'⟩)
          subst hbefore
          exact Nat.add_le_add_right (ih h') _

end Descents

section Trees

open Rows

variable {rows : Rows} {index : Int} {tree : TypeTree}

theorem exists_mem_argumentNesting {trees : List TypeTree} (h : trees ≠ []) :
    ∃ tree ∈ trees, TypeTree.argumentNesting trees = tree.nesting + 1 := by
  induction trees with
  | nil => exact absurd rfl h
  | cons tree trees ih =>
      rw [TypeTree.argumentNesting]
      rcases le_total (TypeTree.argumentNesting trees) (tree.nesting + 1) with hle | hle
      · exact ⟨tree, List.mem_cons_self, max_eq_left hle⟩
      · have hsome : trees ≠ [] := by
          rintro rfl
          exact absurd hle (Nat.not_succ_le_zero _)
        obtain ⟨deepest, hmem, hnesting⟩ := ih hsome
        exact ⟨deepest, List.mem_cons_of_mem _ hmem, by rw [max_eq_right hle, hnesting]⟩

theorem lists_of_mem {α : Type} {values : Array α} {start count : Int} {value : α}
    {listed : List α} (hlisted : valuesAt? values start count = some listed)
    (h : value ∈ listed) : Lists values start count value := by
  obtain ⟨i, hi, hvalue⟩ :=
    exists_of_mem_of_forall₂ (mapM_eq_some_iff.mp hlisted).flip h
  exact ⟨i, by have := List.mem_range.mp hi; omega, hvalue⟩

theorem listsArgument_of_mem {list : Int} {listed : List Int}
    (hlisted : rows.argumentRows? list = some listed) (h : index ∈ listed) :
    rows.ListsArgument list index := by
  unfold argumentRows? at hlisted
  split at hlisted
  · obtain rfl := Option.some.inj hlisted
    cases h
  · obtain ⟨inst, hinst, hvalues⟩ := Option.bind_eq_some_iff.mp hlisted
    exact ⟨inst, hinst, lists_of_mem hvalues h⟩

/-- A tree is nested as deep as some descent to a row that is no array and no pointer. -/
theorem exists_descent (h : rows.Unfolds index tree) {through : Int → Prop}
    (hthrough : ∀ part, Relation.TransGen rows.Refers index part → through part) :
    ∃ part, rows.IsLeaf part ∧ rows.Descends through index tree.nesting part := by
  induction hsize : sizeOf tree using Nat.strongRecOn generalizing index tree with
  | ind size ih =>
      obtain @⟨_, row, _, hrow, hdata⟩ := h
      have hhead : ∀ {part inner}, rows.Refers index part → rows.Unfolds part inner →
          sizeOf inner < size → ∃ leaf, rows.IsLeaf leaf ∧
            rows.Descends through index (rows.opens index + inner.nesting) leaf := by
        intro part inner hrefers hinner hlt
        obtain ⟨leaf, hleaf, hdescends⟩ := ih (sizeOf inner) hlt hinner
          (fun other hother => hthrough other (.head hrefers hother)) rfl
        exact ⟨leaf, hleaf, .head hrefers (hthrough part (.single hrefers)) hdescends⟩
      have hopens := opens_of_role hrow
      generalize hrole : Kind.role row.kind = role at hdata hopens
      generalize hindex : row.data = data at hdata
      cases hdata with
      | element hinner =>
          rw [TypeTree.element.sizeOf_spec] at hsize
          obtain ⟨leaf, hleaf, hdescends⟩ := hhead (hindex ▸ .element hrow hrole) hinner (by omega)
          rw [hopens, if_neg (by simp), Nat.zero_add] at hdescends
          exact ⟨leaf, hleaf, by rwa [TypeTree.nesting]⟩
      | @instantiation _ _ classRow listed trees hclass hlisted htrees =>
          rw [TypeTree.nesting]
          by_cases hnone : trees = []
          · subst hnone
            exact ⟨index, ⟨row, hrow, by simp [hrole]⟩, .refl⟩
          · obtain ⟨inner, hmem, hnesting⟩ := exists_mem_argumentNesting hnone
            obtain ⟨argument, hargument, hinner⟩ := exists_of_mem_of_forall₂ htrees.flip hmem
            have hlt := List.sizeOf_lt_of_mem hmem
            rw [TypeTree.instantiation.sizeOf_spec] at hsize
            obtain ⟨leaf, hleaf, hdescends⟩ := hhead (.argument hrow hrole (hindex ▸ hclass)
              (listsArgument_of_mem hlisted hargument)) hinner (by omega)
            rw [hopens, if_pos rfl] at hdescends
            exact ⟨leaf, hleaf, by rwa [hnesting, Nat.add_comm]⟩
      | definition | parameter | plain =>
          exact ⟨index, ⟨row, hrow, by simp [hrole]⟩, by rw [TypeTree.nesting]; exact .refl⟩

end Trees

end TypeAtlas
