import TypeAtlas.Proofs.Linking.Ending
/-!
Types that are met twice: the check of a relation passes exactly if following it comes to an end
from every type, and otherwise it answers the first type that is met twice on the way from the
first type from which it does not. Walks stop at types from which the relation is known to end; a
way that does not end meets none of them.
-/

namespace TypeAtlas.Chain

variable {next : Nat → Option Nat} {current : Option Nat} {start type size : Nat}

/-- Following a relation comes to an end. -/
inductive Ends (next : Nat → Option Nat) : Option Nat → Prop
  | none : Ends next none
  | some {type : Nat} (h : Ends next (next type)) : Ends next (some type)

theorem Ends.not_transGen (h : Ends next current) (hcurrent : current = .some type) :
    ¬Relation.TransGen (fun a b => next a = .some b) type type := by
  induction h generalizing type with
  | none => cases hcurrent
  | some _ ih =>
      obtain rfl := Option.some.inj hcurrent
      intro hback
      obtain ⟨other, hnext, hreach⟩ := Relation.TransGen.head'_iff.mp hback
      exact ih hnext (Relation.TransGen.tail' hreach hnext)

/-- Where a relation leads in some steps. -/
def follow (next : Nat → Option Nat) (steps : Nat) (current : Option Nat) : Option Nat :=
  (fun passed : Option Nat => passed.bind next)^[steps] current

/-- On the way from a type, this one is the first to be met twice. -/
def MetTwice (next : Nat → Option Nat) (start type : Nat) : Prop :=
  ∃ first last, first < last ∧ follow next first (some start) = some type ∧
    follow next last (some start) = some type ∧
    ∀ i j, i < j → j < last → follow next i (some start) ≠ follow next j (some start)

section Following

theorem follow_succ (steps : Nat) :
    follow next (steps + 1) current = (follow next steps current).bind next :=
  Function.iterate_succ_apply' _ _ _

theorem follow_succ_some (steps : Nat) :
    follow next (steps + 1) (some type) = follow next steps (next type) :=
  Function.iterate_succ_apply _ _ _

theorem follow_add (more steps : Nat) :
    follow next (more + steps) current = follow next more (follow next steps current) :=
  Function.iterate_add_apply _ _ _ _

theorem follow_none (steps : Nat) : follow next steps none = none :=
  Function.iterate_fixed rfl steps

theorem ends_iff : Ends next current ↔ ∃ steps, follow next steps current = none := by
  constructor
  · intro h
    induction h with
    | none => exact ⟨0, rfl⟩
    | some _ ih =>
        obtain ⟨steps, hsteps⟩ := ih
        exact ⟨steps + 1, (follow_succ_some steps).trans hsteps⟩
  · rintro ⟨steps, hsteps⟩
    induction steps generalizing current with
    | zero =>
        obtain rfl : current = none := hsteps
        exact .none
    | succ steps ih =>
        cases current with
        | none => exact .none
        | some type => exact .some (ih ((follow_succ_some steps).symm.trans hsteps))

/-- A way that comes to an end repeats nothing before: what is met twice would be left behind over
and over again. -/
theorem follow_ne_of_lt {stop i j : Nat} (hstop : follow next stop current = none)
    (hbefore : ∀ steps < stop, follow next steps current ≠ none) (hij : i < j) (hj : j < stop) :
    follow next i current ≠ follow next j current := by
  intro hsame
  refine hbefore (stop - j + i) (by omega) ?_
  calc follow next (stop - j + i) current
      = follow next (stop - j) (follow next j current) := by rw [follow_add, hsame]
    _ = follow next stop current := by rw [← follow_add, Nat.sub_add_cancel hj.le]
    _ = none := hstop

theorem exists_first_of_ends (h : Ends next current) :
    ∃ stop, follow next stop current = none ∧
      ∀ steps < stop, follow next steps current ≠ none := by
  have hexists := ends_iff.mp h
  exact ⟨Nat.find hexists, Nat.find_spec hexists, fun _ => Nat.find_min hexists⟩

theorem MetTwice.not_ends (h : MetTwice next start type) : ¬Ends next (some start) := by
  obtain ⟨first, last, hlt, hfirst, hlast, -⟩ := h
  intro hends
  obtain ⟨stop, hstop, hbefore⟩ := exists_first_of_ends hends
  have hlaststop : last < stop := by
    by_contra hle
    have hnone : follow next last (some start) = none := by
      rw [← Nat.sub_add_cancel (Nat.le_of_not_lt hle), follow_add, hstop, follow_none]
    cases hnone.symm.trans hlast
  exact follow_ne_of_lt hstop hbefore hlt hlaststop (hfirst.trans hlast.symm)

theorem MetTwice.exists_return (h : MetTwice next start type) :
    ∃ steps, 0 < steps ∧ follow next steps (some type) = some type := by
  obtain ⟨first, last, hlt, hfirst, hlast, -⟩ := h
  refine ⟨last - first, Nat.sub_pos_of_lt hlt, ?_⟩
  calc follow next (last - first) (some type)
      = follow next (last - first + first) (some start) := by rw [follow_add, hfirst]
    _ = some type := by rw [Nat.sub_add_cancel hlt.le, hlast]

variable (hinside : ∀ type other, next type = some other → other < size)

include hinside

theorem lt_of_follow {steps passed : Nat} (hstart : start < size)
    (h : follow next steps (some start) = some passed) : passed < size := by
  cases steps with
  | zero =>
      obtain rfl := Option.some.inj h
      exact hstart
  | succ steps =>
      rw [follow_succ] at h
      obtain ⟨other, -, hnext⟩ := Option.bind_eq_some_iff.mp h
      exact hinside other passed hnext

theorem lt_of_metTwice (hstart : start < size) (h : MetTwice next start type) : type < size := by
  obtain ⟨first, -, -, hfirst, -⟩ := h
  exact lt_of_follow hinside hstart hfirst

/-- The types on a way that comes to an end are different, so there are no more steps than types. -/
theorem exists_le_of_ends (h : Ends next (some start)) (hstart : start < size) :
    ∃ steps ≤ size, follow next steps (some start) = none := by
  obtain ⟨stop, hstop, hbefore⟩ := exists_first_of_ends h
  have hpassed : ∀ steps < stop,
      ∃ passed < size, follow next steps (some start) = some passed := by
    intro steps hsteps
    obtain ⟨passed, hpassed⟩ := Option.ne_none_iff_exists'.mp (hbefore steps hsteps)
    exact ⟨passed, lt_of_follow hinside hstart hpassed, hpassed⟩
  choose! passed hlt hfollow using hpassed
  refine ⟨stop, ?_, hstop⟩
  have hnodup : ((List.range stop).map passed).Nodup := by
    refine List.Nodup.map_on (fun i hi j hj hsame => ?_) List.nodup_range
    rw [List.mem_range] at hi hj
    have heq : follow next i (some start) = follow next j (some start) := by
      rw [hfollow i hi, hfollow j hj, hsame]
    rcases Nat.lt_trichotomy i j with hij | hij | hij
    · exact absurd heq (follow_ne_of_lt hstop hbefore hij hj)
    · exact hij
    · exact absurd heq.symm (follow_ne_of_lt hstop hbefore hij hi)
  have hlength := length_le_of_nodup hnodup fun number hnumber => by
    obtain ⟨i, hi, rfl⟩ := List.mem_map.mp hnumber
    exact hlt i (List.mem_range.mp hi)
  rwa [List.length_map, List.length_range] at hlength

end Following

section Walking

variable {ends : Std.HashSet Nat} {path : List Nat} {result : Except Nat (List Nat)}

/-- The types that a walk from a start has passed, the last one first, and where it has come to. -/
structure Trail (next : Nat → Option Nat) (start : Nat) (path : List Nat)
    (current : Option Nat) : Prop where
  current : follow next path.length (some start) = current
  passed : ∀ (i : Nat) (h : i < path.reverse.length),
    follow next i (some start) = some path.reverse[i]
  nodup : path.Nodup

theorem trail_nil (next : Nat → Option Nat) (start : Nat) : Trail next start [] (some start) :=
  ⟨rfl, nofun, List.nodup_nil⟩

theorem Trail.cons (h : Trail next start path (some type)) (hnew : type ∉ path) :
    Trail next start (type :: path) (next type) := by
  refine ⟨?_, ?_, List.nodup_cons.mpr ⟨hnew, h.nodup⟩⟩
  · rw [List.length_cons, follow_succ, h.current]
    rfl
  · intro i hi
    simp only [List.reverse_cons, List.length_append, List.length_reverse,
      List.length_singleton] at hi
    by_cases hlast : i = path.length
    · subst hlast
      simpa using h.current
    · have hlt : i < path.reverse.length := by
        rw [List.length_reverse]
        omega
      simp only [List.reverse_cons, List.getElem_append_left hlt]
      exact h.passed i hlt

theorem Trail.metTwice (h : Trail next start path (some type)) (hmet : type ∈ path) :
    MetTwice next start type := by
  obtain ⟨first, hfirst, htype⟩ := List.getElem_of_mem (List.mem_reverse.mpr hmet)
  refine ⟨first, path.length, ?_, ?_, h.current, ?_⟩
  · rwa [List.length_reverse] at hfirst
  · rw [h.passed first hfirst, htype]
  · intro i j hij hj hsame
    have hj' : j < path.reverse.length := by rwa [List.length_reverse]
    rw [h.passed i (hij.trans hj'), h.passed j hj'] at hsame
    have heq := (List.nodup_reverse.mpr h.nodup).getElem_inj_iff.mp (Option.some.inj hsame)
    omega

theorem WalkRun.metTwice (hrun : WalkRun next ends path current result)
    (htrail : Trail next start path current) (hresult : result = .error type) :
    MetTwice next start type := by
  induction hrun with
  | ended => cases hresult
  | known => cases hresult
  | met _ hmet =>
      obtain rfl := Except.error.inj hresult
      exact htrail.metTwice hmet
  | step _ hnew _ ih => exact ih (htrail.cons hnew) hresult

theorem ends_of_walkRun (hrun : WalkRun next ends path current result)
    (hknown : ∀ type, ends.contains type = true → Ends next (some type)) {found : List Nat}
    (hresult : result = .ok found) :
    Ends next current ∧
      ((∀ passed ∈ path, Ends next current → Ends next (some passed)) →
        ∀ passed ∈ found, Ends next (some passed)) := by
  -- That the types on the path end is known only when the walk stops, hence the implication.
  induction hrun with
  | ended =>
      obtain rfl := Except.ok.inj hresult
      exact ⟨.none, fun hpath passed hpassed => hpath passed hpassed .none⟩
  | known hends =>
      obtain rfl := Except.ok.inj hresult
      have h := hknown _ hends
      exact ⟨h, fun hpath passed hpassed => hpath passed hpassed h⟩
  | met => cases hresult
  | step _ _ _ ih =>
      obtain ⟨hnext, hfound⟩ := ih hresult
      refine ⟨.some hnext, fun hpath => hfound fun passed hpassed hends => ?_⟩
      rcases List.mem_cons.mp hpassed with rfl | hpassed
      · exact .some hends
      · exact hpath passed hpassed (.some hends)

theorem contains_foldl_insert {types : List Nat} :
    (types.foldl (·.insert ·) ends).contains type = true ↔
      type ∈ types ∨ ends.contains type = true := by
  induction types generalizing ends with
  | nil => simp
  | cons other types ih =>
      rw [List.foldl_cons, ih, Std.HashSet.contains_insert, List.mem_cons, Bool.or_eq_true,
        beq_iff_eq, eq_comm (a := other)]
      tauto

theorem walkAll_ends_or_metTwice (hnext : ∀ type, (next type).isSome = true → type < size)
    (starts : List Nat) (hknown : ∀ type, ends.contains type = true → Ends next (some type)) :
    (walkAll next (size + 1) starts ends = .ok () ∧
        ∀ start ∈ starts, Ends next (some start)) ∨
      ∃ before start rest type, starts = before ++ start :: rest ∧
        walkAll next (size + 1) starts ends = .error type ∧
        (∀ other ∈ before, Ends next (some other)) ∧ MetTwice next start type := by
  induction starts generalizing ends with
  | nil => exact Or.inl ⟨rfl, by simp⟩
  | cons start starts ih =>
      have hrun : WalkRun next ends [] (some start)
          (walk next ends (size + 1) [] (some start)) :=
        walkRun_of_fuel hnext List.nodup_nil (by simp) (by simp) _
      rw [walkAll]
      cases hwalk : walk next ends (size + 1) [] (some start) with
      | error type =>
          have hmet := hrun.metTwice (trail_nil next start) hwalk
          exact Or.inr ⟨[], start, starts, type, rfl, rfl, by simp, hmet⟩
      | ok path =>
          obtain ⟨hstart, hpath⟩ := ends_of_walkRun hrun hknown hwalk
          have hpath := hpath (by simp)
          -- The types that are known are now also those that the walk has passed.
          have hknown' : ∀ type, (path.foldl (·.insert ·) ends).contains type = true →
              Ends next (some type) := by
            intro type htype
            rcases contains_foldl_insert.mp htype with hmem | hmem
            · exact hpath type hmem
            · exact hknown type hmem
          rcases ih hknown' with
            ⟨hok, hends⟩ | ⟨before, other, rest, type, rfl, herror, hbefore, hmet⟩
          · exact Or.inl ⟨hok, List.forall_mem_cons.mpr ⟨hstart, hends⟩⟩
          · refine Or.inr ⟨start :: before, other, rest, type, rfl, herror, ?_, hmet⟩
            exact List.forall_mem_cons.mpr ⟨hstart, hbefore⟩

/-- The check of a relation passes and the relation ends from every type, or it answers the first
type that is met twice on the way from the least type from which the relation does not end. -/
theorem check_ends_or_metTwice (hnext : ∀ type, (next type).isSome = true → type < size) :
    (check next size = .ok () ∧ ∀ start < size, Ends next (some start)) ∨
      ∃ start type, check next size = .error type ∧
        IsLeast {start | start < size ∧ ¬Ends next (some start)} start ∧
        MetTwice next start type := by
  have hknown : ∀ type, (∅ : Std.HashSet Nat).contains type = true → Ends next (some type) := by
    simp
  rcases walkAll_ends_or_metTwice hnext (List.range size) hknown with
    ⟨hok, hends⟩ | ⟨before, start, rest, type, hrange, herror, hbefore, hmet⟩
  · exact Or.inl ⟨hok, fun start hstart => hends start (List.mem_range.mpr hstart)⟩
  · refine Or.inr ⟨start, type, herror, ⟨⟨?_, hmet.not_ends⟩, ?_⟩, hmet⟩
    · rw [← List.mem_range, hrange]
      simp
    · rintro other ⟨hother, hforever⟩
      have hpairwise := List.pairwise_lt_range (n := size)
      rw [← List.mem_range, hrange] at hother
      rw [hrange, List.pairwise_append, List.pairwise_cons] at hpairwise
      rcases List.mem_append.mp hother with hmem | hmem
      · exact absurd (hbefore other hmem) hforever
      · rcases List.mem_cons.mp hmem with rfl | hmem
        · exact le_rfl
        · exact (hpairwise.2.1.1 other hmem).le

end Walking

/-- The check of a relation between types passes exactly if following it from every type comes to an
end in no more steps than there are types. Otherwise it reports a type from which the relation leads
back to it: the first one that is met twice on the way from the least type from which the relation
does not end. -/
theorem checkTypes_exact {types : Array TypeDefinition} {relation : TypeDefinition → Option Nat}
    (phrase : String)
    (hinside : ∀ type ∈ types, ∀ other, relation type = some other → other < types.size) :
    (checkTypes types relation phrase = .ok () ↔
        ∀ start < types.size, ∃ steps ≤ types.size,
          follow (step types relation) steps (some start) = none) ∧
      ∀ fault, checkTypes types relation phrase = .error fault →
        ∃ start type, fault = cyclic types phrase type ∧ type < types.size ∧
          (∃ steps, 0 < steps ∧
            follow (step types relation) steps (some type) = some type) ∧
          IsLeast {start | start < types.size ∧
            ∀ steps, follow (step types relation) steps (some start) ≠ none} start ∧
          MetTwice (step types relation) start type := by
  have hstep : ∀ type other, step types relation type = some other → other < types.size := by
    intro type other h
    obtain ⟨found, hfound, hother⟩ := Option.bind_eq_some_iff.mp h
    exact hinside found (Array.mem_of_getElem? hfound) other hother
  have hends : ∀ start, ¬Ends (step types relation) (some start) ↔
      ∀ steps, follow (step types relation) steps (some start) ≠ none :=
    fun start => by rw [ends_iff, not_exists]
  have hbound : ∀ type, (step types relation type).isSome = true → type < types.size :=
    fun _ => lt_of_step
  rcases check_ends_or_metTwice hbound with
    ⟨hok, hall⟩ | ⟨start, type, herror, hleast, hmet⟩
  · rw [checkTypes, hok]
    refine ⟨⟨fun _ start hstart => ?_, fun _ => rfl⟩, fun fault hfault => ?_⟩
    · exact exists_le_of_ends hstep (hall start hstart) hstart
    · cases hfault
  · rw [checkTypes, herror]
    constructor
    · constructor
      · intro hok
        cases hok
      · intro h
        obtain ⟨steps, -, hsteps⟩ := h start hleast.1.1
        exact absurd (ends_iff.mpr ⟨steps, hsteps⟩) hleast.1.2
    · intro fault hfault
      obtain rfl := Except.error.inj hfault
      simp only [hends] at hleast
      exact ⟨start, type, rfl, lt_of_metTwice hstep hleast.1.1 hmet, hmet.exists_return, hleast,
        hmet⟩

/-- Five types without names and members. The first two derive from nothing in the end; the third
one leads to the last two, which derive from each other. -/
def loopTypes : Array TypeDefinition :=
  #[none, some 0, some 3, some 4, some 3].map fun base =>
    { name := "", namespaceName := "", module := none, base, enclosing := none, fields := []
      methods := [], properties := [], nestedTypes := [], interfaces := []
      genericParameters := [], flags := 0, bitfield := 0, token := 0 }

theorem checkTypes_loopTypes :
    (∀ type ∈ loopTypes, ∀ other, type.base = some other → other < loopTypes.size) ∧
      checkTypes loopTypes TypeDefinition.base "derives from" =
        .error (cyclic loopTypes "derives from" 3) ∧
      ∃ start, IsLeast {start | start < loopTypes.size ∧
          ∀ steps, follow (step loopTypes TypeDefinition.base) steps (some start) ≠ none} start ∧
        MetTwice (step loopTypes TypeDefinition.base) start 3 := by
  have hinside : ∀ type ∈ loopTypes, ∀ other, type.base = some other → other < loopTypes.size := by
    simp [loopTypes]
  have herror : checkTypes loopTypes TypeDefinition.base "derives from" =
      .error (cyclic loopTypes "derives from" 3) := by cbv
  obtain ⟨start, type, hfault, -, -, hleast, hmet⟩ :=
    (checkTypes_exact "derives from" hinside).2 _ herror
  have hindex := congrArg Fault.index hfault
  simp only [cyclic, Option.some.injEq, Int.natCast_inj] at hindex
  subst hindex
  exact ⟨hinside, herror, start, hleast, hmet⟩

end TypeAtlas.Chain
