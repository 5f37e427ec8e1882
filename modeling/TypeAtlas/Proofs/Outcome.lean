import Mathlib
import TypeAtlas.Log

namespace TypeAtlas

variable {α β : Type}

theorem ok_bind (value : α) (next : α → Except Fault β) :
    Except.ok value >>= next = next value :=
  rfl

theorem error_bind (fault : Fault) (next : α → Except Fault β) :
    Except.error fault >>= next = .error fault :=
  rfl

theorem bind_eq_ok {first : Except Fault α} {next : α → Except Fault β} {result : β}
    (h : first >>= next = .ok result) : ∃ value, first = .ok value ∧ next value = .ok result := by
  cases hfirst : first with
  | error fault =>
      rw [hfirst] at h
      cases h
  | ok value =>
      rw [hfirst] at h
      exact ⟨value, rfl, h⟩

theorem bind_eq_error {first : Except Fault α} {next : α → Except Fault β} {fault : Fault}
    (h : first >>= next = .error fault) :
    first = .error fault ∨ ∃ value, first = .ok value ∧ next value = .error fault := by
  cases hfirst : first with
  | error found =>
      rw [hfirst] at h
      obtain rfl := Except.error.inj h
      exact Or.inl rfl
  | ok value =>
      rw [hfirst] at h
      exact Or.inr ⟨value, rfl, h⟩

section Checks

variable {check : Except Fault PUnit} {next : PUnit → Except Fault α} {result : α} {fault : Fault}

theorem check_bind_eq_ok_iff :
    check >>= next = .ok result ↔ check = .ok ⟨⟩ ∧ next ⟨⟩ = .ok result := by
  cases check with
  | error fault => simp [bind, Except.bind]
  | ok _ => simp [bind, Except.bind]

theorem ite_check_bind_eq_ok_iff {needed : Prop} [Decidable needed] :
    (if needed then check >>= next else next ⟨⟩) = .ok result ↔
      (needed → check = .ok ⟨⟩) ∧ next ⟨⟩ = .ok result := by
  by_cases hneeded : needed
  · rw [if_pos hneeded, check_bind_eq_ok_iff, imp_iff_right hneeded]
  · rw [if_neg hneeded, and_iff_right fun h => absurd h hneeded]

theorem ite_check_bind_eq_error {needed : Prop} [Decidable needed]
    (h : (if needed then check >>= next else next ⟨⟩) = .error fault) :
    check = .error fault ∨ next ⟨⟩ = .error fault := by
  split at h
  · rcases bind_eq_error h with hcheck | ⟨_, -, hnext⟩
    · exact Or.inl hcheck
    · exact Or.inr hnext
  · exact Or.inr h

theorem throw_ne_ok {value : α} : (throw fault : Except Fault α) ≠ .ok value :=
  nofun

end Checks

theorem map_isOk_iff {result : Except Fault α} {change : α → β} :
    (∃ value, result.map change = .ok value) ↔ ∃ value, result = .ok value := by
  cases result <;> simp [Except.map]

theorem map_eq_ok {result : Except Fault α} {change : α → β} {made : β}
    (h : result.map change = .ok made) : ∃ value, result = .ok value ∧ change value = made := by
  cases result with
  | error fault => cases h
  | ok value => exact ⟨value, rfl, Except.ok.inj h⟩

theorem map_eq_error {result : Except Fault α} {change : α → β} {fault : Fault}
    (h : result.map change = .error fault) : result = .error fault := by
  cases result with
  | ok value => cases h
  | error found =>
      obtain rfl := Except.error.inj h
      rfl

theorem mapM_congr {m : Type → Type} [Monad m] [LawfulMonad m] {make make' : α → m β}
    {items : List α} (h : ∀ item ∈ items, make item = make' item) :
    items.mapM make = items.mapM make' := by
  induction items with
  | nil => rfl
  | cons item items ih =>
      rw [List.mapM_cons, List.mapM_cons, h item List.mem_cons_self,
        ih fun other hother => h other (List.mem_cons_of_mem _ hother)]

theorem mapM_eq_ok {make : α → Except Fault β} {items : List α} {made : List β}
    (h : items.mapM make = .ok made) :
    List.Forall₂ (fun item value => make item = .ok value) items made := by
  induction items generalizing made with
  | nil =>
      obtain rfl := Except.ok.inj h
      exact .nil
  | cons item items ih =>
      rw [List.mapM_cons] at h
      obtain ⟨first, hfirst, h⟩ := bind_eq_ok h
      obtain ⟨rest, hrest, h⟩ := bind_eq_ok h
      obtain rfl := Except.ok.inj h
      exact .cons hfirst (ih hrest)

theorem mem_iff_of_mapM_eq_ok {make : α → Except Fault β} {items : List α} {made : List β}
    (h : items.mapM make = .ok made) {value : β} :
    value ∈ made ↔ ∃ item ∈ items, make item = .ok value := by
  have hmade := mapM_eq_ok h
  clear h
  induction hmade with
  | nil => simp
  | cons hfirst _ ih => simp [hfirst, ih, eq_comm (a := value)]

theorem mapM_isOk_iff {make : α → Except Fault β} {items : List α} :
    (∃ made, items.mapM make = .ok made) ↔ ∀ item ∈ items, ∃ value, make item = .ok value := by
  induction items with
  | nil => simp [pure, Except.pure]
  | cons item items ih =>
      rw [List.forall_mem_cons, ← ih, List.mapM_cons]
      constructor
      · rintro ⟨made, h⟩
        obtain ⟨first, hfirst, h⟩ := bind_eq_ok h
        obtain ⟨rest, hrest, -⟩ := bind_eq_ok h
        exact ⟨⟨first, hfirst⟩, ⟨rest, hrest⟩⟩
      · rintro ⟨⟨first, hfirst⟩, ⟨rest, hrest⟩⟩
        rw [hfirst, hrest]
        exact ⟨first :: rest, rfl⟩

theorem exists_of_mapM_eq_error {make : α → Except Fault β} {items : List α} {fault : Fault}
    (h : items.mapM make = .error fault) : ∃ item ∈ items, make item = .error fault := by
  induction items with
  | nil => cases h
  | cons item items ih =>
      rw [List.mapM_cons] at h
      rcases bind_eq_error h with hfirst | ⟨first, -, h⟩
      · exact ⟨item, List.mem_cons_self, hfirst⟩
      · rcases bind_eq_error h with hrest | ⟨rest, -, h⟩
        · obtain ⟨other, hother, hfault⟩ := ih hrest
          exact ⟨other, List.mem_cons_of_mem _ hother, hfault⟩
        · cases h

theorem mapM_eq_some_iff {look : α → Option β} {items : List α} {found : List β} :
    items.mapM look = some found ↔
      List.Forall₂ (fun item value => look item = some value) items found := by
  constructor
  · intro h
    induction items generalizing found with
    | nil =>
        obtain rfl := Option.some.inj h
        exact .nil
    | cons item items ih =>
        simp only [List.mapM_cons, Option.bind_eq_bind, Option.pure_def,
          Option.bind_eq_some_iff, Option.some.injEq] at h
        obtain ⟨first, hfirst, rest, hrest, rfl⟩ := h
        exact .cons hfirst (ih hrest)
  · intro h
    induction h with
    | nil => rfl
    | cons hfirst _ ih => simp [List.mapM_cons, hfirst, ih]

theorem exists_forall₂ {relation : α → β → Prop} {items : List α}
    (h : ∀ item ∈ items, ∃ value, relation item value) :
    ∃ values, List.Forall₂ relation items values := by
  induction items with
  | nil => exact ⟨[], .nil⟩
  | cons item items ih =>
      obtain ⟨value, hvalue⟩ := h item List.mem_cons_self
      obtain ⟨values, hvalues⟩ := ih fun other hother => h other (List.mem_cons_of_mem _ hother)
      exact ⟨value :: values, .cons hvalue hvalues⟩

theorem exists_mapM_eq_some {look : α → Option β} {items : List α}
    (h : ∀ item ∈ items, ∃ value, look item = some value) :
    ∃ found, items.mapM look = some found := by
  simp only [mapM_eq_some_iff]
  exact exists_forall₂ h

theorem exists_getElem?_of_forall₂ {relation : α → β → Prop} {items : List α} {made : List β}
    (h : List.Forall₂ relation items made) {index : Nat} {value : β}
    (hvalue : made[index]? = some value) :
    ∃ item, items[index]? = some item ∧ relation item value := by
  induction h generalizing index with
  | nil => simp at hvalue
  | @cons item first items made hfirst _ ih =>
      cases index with
      | zero =>
          obtain rfl := Option.some.inj hvalue
          exact ⟨item, rfl, hfirst⟩
      | succ index => exact ih hvalue

theorem exists_of_mem_of_forall₂ {relation : α → β → Prop} {items : List α} {made : List β}
    (h : List.Forall₂ relation items made) {item : α} (hitem : item ∈ items) :
    ∃ value ∈ made, relation item value := by
  induction h with
  | nil => cases hitem
  | @cons first value items made hfirst _ ih =>
      rcases List.mem_cons.mp hitem with rfl | hitem
      · exact ⟨value, List.mem_cons_self, hfirst⟩
      · obtain ⟨found, hfound, hrelation⟩ := ih hitem
        exact ⟨found, List.mem_cons_of_mem _ hfound, hrelation⟩

namespace Logged

/-- What a computation answers and writes behind what the log holds already. -/
def outcomeFrom (computation : Logged α) (log : Log) : Except Fault α × Log :=
  Id.run (StateT.run (ExceptT.run computation) log)

/-- A computation adds lines to a log without looking at it. -/
def Appends (computation : Logged α) : Prop :=
  ∀ log, computation.outcomeFrom log = (computation.outcome.1, log ++ computation.outcome.2)

theorem outcomeFrom_bind_ok {first : Logged α} {next : α → Logged β} {log lines : Log} {value : α}
    (h : first.outcomeFrom log = (.ok value, lines)) :
    (first >>= next).outcomeFrom log = (next value).outcomeFrom lines := by
  simp only [outcomeFrom, Id.run] at h ⊢
  rw [ExceptT.run_bind, StateT.run_bind, h]
  rfl

theorem outcomeFrom_bind_error {first : Logged α} {next : α → Logged β} {log lines : Log}
    {fault : Fault} (h : first.outcomeFrom log = (.error fault, lines)) :
    (first >>= next).outcomeFrom log = (.error fault, lines) := by
  simp only [outcomeFrom, Id.run] at h ⊢
  rw [ExceptT.run_bind, StateT.run_bind, h]
  rfl

theorem appends_ofExcept (result : Except Fault α) : Appends (ofExcept result) := by
  intro log
  change (result, log) = (result, log ++ #[])
  rw [Array.append_empty]

theorem appends_pure (value : α) : Appends (pure value) :=
  appends_ofExcept (.ok value)

theorem appends_throw (fault : Fault) : Appends (throw fault : Logged α) :=
  appends_ofExcept (.error fault)

theorem appends_write (line : Log.Line) : Appends (write line) := by
  intro log
  change (Except.ok (), log.push line) = (Except.ok (), log ++ #[line])
  rw [Array.push_eq_append]

theorem Appends.bind {first : Logged α} {next : α → Logged β} (hfirst : Appends first)
    (hnext : ∀ value, Appends (next value)) : Appends (first >>= next) := by
  intro log
  have hempty : first.outcomeFrom #[] = first.outcome := rfl
  have hlog := hfirst log
  change _ = (((first >>= next).outcomeFrom #[]).1, log ++ ((first >>= next).outcomeFrom #[]).2)
  cases hfound : first.outcome with
  | mk result lines =>
      rw [hfound] at hempty hlog
      cases result with
      | error fault => rw [outcomeFrom_bind_error hlog, outcomeFrom_bind_error hempty]
      | ok value =>
          rw [outcomeFrom_bind_ok hlog, outcomeFrom_bind_ok hempty, hnext value, hnext value lines,
            Array.append_assoc]

/-- The answer of two computations is that of the second one, given that of the first one. -/
theorem outcome_bind_ok {first : Logged α} {next : α → Logged β} {value : α}
    (hfirst : first.outcome.1 = .ok value) (hnext : Appends (next value)) :
    (first >>= next).outcome.1 = (next value).outcome.1 := by
  have hempty : first.outcomeFrom #[] = (.ok value, first.outcome.2) := Prod.ext hfirst rfl
  change ((first >>= next).outcomeFrom #[]).1 = _
  rw [outcomeFrom_bind_ok hempty, hnext]

theorem outcome_bind_error {first : Logged α} {next : α → Logged β} {fault : Fault}
    (hfirst : first.outcome.1 = .error fault) : (first >>= next).outcome.1 = .error fault := by
  have hempty : first.outcomeFrom #[] = (.error fault, first.outcome.2) := Prod.ext hfirst rfl
  change ((first >>= next).outcomeFrom #[]).1 = _
  rw [outcomeFrom_bind_error hempty]

theorem outcome_bind {first : Logged α} {next : α → Logged β}
    (hnext : ∀ value, Appends (next value)) :
    (first >>= next).outcome.1 = first.outcome.1 >>= fun value => (next value).outcome.1 := by
  cases hfirst : first.outcome.1 with
  | error fault => exact outcome_bind_error hfirst
  | ok value => exact outcome_bind_ok hfirst (hnext value)

theorem exists_of_outcome_bind {first : Logged α} {next : α → Logged β} {result : β}
    (hnext : ∀ value, Appends (next value)) (h : (first >>= next).outcome.1 = .ok result) :
    ∃ value, first.outcome.1 = .ok value ∧ (next value).outcome.1 = .ok result := by
  rw [outcome_bind hnext] at h
  exact bind_eq_ok h

theorem outcome_ofExcept_bind_eq_ok_iff {first : Except Fault α} {next : α → Logged β}
    {result : β} :
    (ofExcept first >>= next).outcome.1 = .ok result ↔
      ∃ value, first = .ok value ∧ (next value).outcome.1 = .ok result := by
  cases first with
  | error fault =>
      constructor
      · intro h
        cases h
      · rintro ⟨value, hvalue, -⟩
        cases hvalue
  | ok value =>
      constructor
      · intro h
        exact ⟨value, rfl, h⟩
      · rintro ⟨other, hother, h⟩
        obtain rfl := Except.ok.inj hother
        exact h

theorem appends_forIn {write : α → Logged PUnit} (items : List α)
    (hwrite : ∀ item, Appends (write item)) :
    Appends (forIn items PUnit.unit fun item _ => do
      write item
      pure (ForInStep.yield PUnit.unit)) := by
  induction items with
  | nil => exact appends_pure PUnit.unit
  | cons item items ih =>
      rw [List.forIn_cons]
      refine ((hwrite item).bind fun _ => appends_pure _).bind fun step => ?_
      cases step with
      | done value => exact appends_pure value
      | yield value => exact ih

theorem outcome_forIn {write : α → Logged PUnit} (items : List α)
    (hwrite : ∀ item, Appends (write item)) (hok : ∀ item, (write item).outcome.1 = .ok ⟨⟩) :
    (forIn items PUnit.unit fun item _ => do
      write item
      pure (ForInStep.yield PUnit.unit) : Logged PUnit).outcome.1 = .ok ⟨⟩ := by
  induction items with
  | nil => rfl
  | cons item items ih =>
      have hstep : (do
          write item
          pure (ForInStep.yield PUnit.unit) : Logged (ForInStep PUnit)).outcome.1 =
            .ok (ForInStep.yield PUnit.unit) :=
        outcome_bind_ok (hok item) (appends_pure _)
      rw [List.forIn_cons]
      exact (outcome_bind_ok hstep (appends_forIn items hwrite)).trans ih

end Logged

end TypeAtlas
