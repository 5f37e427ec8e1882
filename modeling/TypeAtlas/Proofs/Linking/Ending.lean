import Mathlib
import TypeAtlas.Graph.Build

namespace TypeAtlas

theorem length_le_of_nodup {numbers : List Nat} {bound : Nat} (hnodup : numbers.Nodup)
    (hlt : ∀ number ∈ numbers, number < bound) : numbers.length ≤ bound := by
  have hsubset : numbers ⊆ List.range bound :=
    fun number hnumber => List.mem_range.mpr (hlt number hnumber)
  have hlength := (List.subperm_of_subset hnodup hsubset).length_le
  rwa [List.length_range] at hlength

namespace Link

/-- Following elements from a row, with the arrays and pointers that have been passed, ends with an
answer or a fault. -/
inductive ElementRun (rows : Rows) (linked : Std.HashMap Nat Nat) (path : List Nat) :
    (chain : List Nat) → (current : Nat) → Except Fault (List Nat × Nat) → Prop
  | linked {chain : List Nat} {current : Nat} (hlinked : linked.contains current = true) :
      ElementRun rows linked path chain current (.ok (chain, current))
  | met {chain : List Nat} {current : Nat} (hlinked : linked.contains current = false)
      (hmet : current ∈ path ∨ current ∈ chain) :
      ElementRun rows linked path chain current (.error (selfReference current))
  | leaf {chain : List Nat} {current : Nat} (hlinked : linked.contains current = false)
      (hnew : ¬(current ∈ path ∨ current ∈ chain))
      (hrole : Kind.role (row rows current).kind ≠ .element) :
      ElementRun rows linked path chain current (.ok (chain, current))
  | outside {chain : List Nat} {current : Nat} {fault : Fault}
      (hlinked : linked.contains current = false) (hnew : ¬(current ∈ path ∨ current ∈ chain))
      (hrole : Kind.role (row rows current).kind = .element)
      (hnext : Bounds.index rows (row rows current).data .typeReferences
        ⟨.typeReferences, current, "data"⟩ = .error fault) :
      ElementRun rows linked path chain current (.error fault)
  | step {chain : List Nat} {current next : Nat} {result : Except Fault (List Nat × Nat)}
      (hlinked : linked.contains current = false) (hnew : ¬(current ∈ path ∨ current ∈ chain))
      (hrole : Kind.role (row rows current).kind = .element)
      (hnext : Bounds.index rows (row rows current).data .typeReferences
        ⟨.typeReferences, current, "data"⟩ = .ok next)
      (h : ElementRun rows linked path (current :: chain) next result) :
      ElementRun rows linked path chain current result

variable {rows : Rows} {linked : Std.HashMap Nat Nat} {path chain : List Nat} {current fuel : Nat}

/-- The rows of a chain are different rows of the table, so a chain that has met all of them has met
the next one, too. -/
theorem elementRun_of_fuel (hnodup : chain.Nodup) (hin : ∀ i ∈ chain, i < rows.references.size)
    (hlt : current < rows.references.size) (hfuel : rows.references.size < fuel + chain.length) :
    ElementRun rows linked path chain current
      (elementChain rows linked path fuel chain current) := by
  induction fuel generalizing chain current with
  | zero =>
      have hle := length_le_of_nodup hnodup hin
      omega
  | succ fuel ih =>
      rw [elementChain]
      by_cases hlinked : linked.contains current = true
      · rw [if_pos hlinked]
        exact .linked hlinked
      · rw [if_neg hlinked]
        rw [Bool.not_eq_true] at hlinked
        simp only [Bool.or_eq_true, List.contains_iff_mem]
        by_cases hmet : current ∈ path ∨ current ∈ chain
        · rw [if_pos hmet]
          exact .met hlinked hmet
        · rw [if_neg hmet]
          by_cases hrole : Kind.role (row rows current).kind = .element
          · rw [if_neg (not_not.mpr hrole)]
            cases hnext : Bounds.index rows (row rows current).data .typeReferences
                ⟨.typeReferences, current, "data"⟩ with
            | error fault => exact .outside hlinked hmet hrole hnext
            | ok next =>
                have hnextlt := (Bounds.index_eq_ok_iff.mp hnext).2
                refine .step hlinked hmet hrole hnext (ih ?_ ?_ hnextlt ?_)
                · exact List.nodup_cons.mpr ⟨fun hmem => hmet (Or.inr hmem), hnodup⟩
                · exact List.forall_mem_cons.mpr ⟨hlt, hin⟩
                · rw [List.length_cons]
                  omega
          · rw [if_pos hrole]
            exact .leaf hlinked hmet hrole

/-- A row is linked while some generic instances are open. -/
def linkOpen (rows : Rows) (path : List Nat) : Int → Site → Link Nat :=
  linkReference rows (mostNesting + 1 - path.length) path

/-- The row at the end of a chain is linked, unless too many generic instances are open. -/
def guardedLeaf (rows : Rows) (path : List Nat) (last : Nat) : Link Nat :=
  if mostNesting < path.length then throw (tooDeep last)
  else do
    let target ← leafTarget rows (linkOpen rows (last :: path)) last
    linkRow rows last target

/-- The room that is left runs out exactly where the guard on the open instances fails. -/
theorem linkOpen_eq (rows : Rows) {path : List Nat} (hpath : path.length ≤ mostNesting + 1) :
    linkOpen rows path = linkWith rows path (guardedLeaf rows path) := by
  unfold linkOpen
  by_cases hdeep : mostNesting < path.length
  · have hroom : mostNesting + 1 - path.length = 0 := by omega
    have hleaf : guardedLeaf rows path = fun last => throw (tooDeep last) :=
      funext fun last => if_pos hdeep
    rw [hroom, linkReference, hleaf]
  · have hroom : mostNesting + 1 - path.length = mostNesting - path.length + 1 := by omega
    have hleaf : guardedLeaf rows path = fun last =>
        leafTarget rows (linkReference rows (mostNesting - path.length) (last :: path)) last >>=
          linkRow rows last := by
      funext last
      rw [guardedLeaf, if_neg hdeep, linkOpen, List.length_cons, Nat.add_sub_add_right]
    rw [hroom, linkReference, hleaf]

end Link

namespace Chain

/-- Following a relation from a type, with the types that have been passed, ends with these types or
with a type that is met twice. -/
inductive WalkRun (next : Nat → Option Nat) (ends : Std.HashSet Nat) :
    (path : List Nat) → (current : Option Nat) → Except Nat (List Nat) → Prop
  | ended {path : List Nat} : WalkRun next ends path none (.ok path)
  | known {path : List Nat} {type : Nat} (hends : ends.contains type = true) :
      WalkRun next ends path (some type) (.ok path)
  | met {path : List Nat} {type : Nat} (hends : ends.contains type = false)
      (hmet : type ∈ path) : WalkRun next ends path (some type) (.error type)
  | step {path : List Nat} {type : Nat} {result : Except Nat (List Nat)}
      (hends : ends.contains type = false) (hnew : type ∉ path)
      (h : WalkRun next ends (type :: path) (next type) result) :
      WalkRun next ends path (some type) result

variable {next : Nat → Option Nat} {ends : Std.HashSet Nat} {size fuel : Nat} {path : List Nat}

/-- The types on a way have a next one each, so they are different types of the table. -/
theorem walkRun_of_fuel (hnext : ∀ type, (next type).isSome = true → type < size)
    (hnodup : path.Nodup) (hin : ∀ type ∈ path, type < size) (hfuel : size < fuel + path.length)
    (current : Option Nat) : WalkRun next ends path current (walk next ends fuel path current) := by
  induction fuel generalizing path current with
  | zero =>
      have hle := length_le_of_nodup hnodup hin
      omega
  | succ fuel ih =>
      cases current with
      | none =>
          rw [walk]
          exact .ended
      | some type =>
          rw [walk]
          by_cases hends : ends.contains type = true
          · rw [if_pos hends]
            exact .known hends
          · rw [if_neg hends]
            rw [Bool.not_eq_true] at hends
            simp only [List.contains_iff_mem]
            by_cases hmet : type ∈ path
            · rw [if_pos hmet]
              exact .met hends hmet
            · rw [if_neg hmet]
              refine .step hends hmet ?_
              cases hcurrent : next type with
              | none =>
                  rw [walk]
                  exact .ended
              | some other =>
                  have hlt : type < size := hnext type (hcurrent ▸ rfl)
                  refine ih (List.nodup_cons.mpr ⟨hmet, hnodup⟩)
                    (List.forall_mem_cons.mpr ⟨hlt, hin⟩) ?_ (some other)
                  rw [List.length_cons]
                  omega

theorem lt_of_step {types : Array TypeDefinition} {relation : TypeDefinition → Option Nat}
    {type : Nat} (h : (step types relation type).isSome = true) : type < types.size := by
  obtain ⟨next, hnext⟩ := Option.isSome_iff_exists.mp h
  obtain ⟨found, hfound, -⟩ := Option.bind_eq_some_iff.mp hnext
  exact (Array.getElem?_eq_some_iff.mp hfound).1

end Chain

/-- What is done step by step to link some rows comes to an end: following elements, following
relations between types, and nesting generic instances, which a guard bounds. -/
structure LoopsEnd (rows : Rows) : Prop where
  elements : ∀ (linked : Std.HashMap Nat Nat) (path : List Nat), ∀ first < rows.references.size,
    Link.ElementRun rows linked path [] first
      (Link.elementChain rows linked path (rows.references.size + 1) [] first)
  types : ∀ (types : Array TypeDefinition) (relation : TypeDefinition → Option Nat)
    (ends : Std.HashSet Nat) (start : Nat),
    Chain.WalkRun (Chain.step types relation) ends [] (some start)
      (Chain.walk (Chain.step types relation) ends (types.size + 1) [] (some start))
  outermost : Link.reference rows = Link.linkOpen rows []
  nesting : ∀ path : List Nat, path.length ≤ Link.mostNesting + 1 →
    Link.linkOpen rows path = Link.linkWith rows path (Link.guardedLeaf rows path)

theorem loopsEnd (rows : Rows) : LoopsEnd rows where
  elements := fun linked path first hfirst =>
    Link.elementRun_of_fuel List.nodup_nil (by simp) hfirst (by simp)
  types := fun types relation ends start =>
    Chain.walkRun_of_fuel (fun type => Chain.lt_of_step) List.nodup_nil (by simp) (by simp) _
  outermost := rfl
  nesting := fun path hpath => Link.linkOpen_eq rows hpath

end TypeAtlas
