import Std.Data.HashMap
/-!
Interning: a growing table in which every value has one number, counted in the order in which the
values were first met. Numbers and values determine each other, which the table carries as a
proof.
-/

namespace TypeAtlas

/-- Values in the order of their numbers, with the numbers by value. -/
structure Interned (α : Type) [BEq α] [LawfulBEq α] [Hashable α] where
  items : Array α
  numbers : Std.HashMap α Nat
  numbers_eq_some_iff : ∀ (value : α) (number : Nat),
    numbers[value]? = some number ↔ items[number]? = some value

namespace Interned

variable {α : Type} [BEq α] [LawfulBEq α] [Hashable α]

/-- The table without values. -/
def empty : Interned α where
  items := #[]
  numbers := ∅
  numbers_eq_some_iff := by simp

theorem numbers_insert_iff (table : Interned α) {value : α} (hnew : table.numbers[value]? = none)
    (other : α) (number : Nat) :
    (table.numbers.insert value table.items.size)[other]? = some number ↔
      (table.items.push value)[number]? = some other := by
  rw [Std.HashMap.getElem?_insert]
  by_cases hvalue : value = other
  · subst hvalue
    simp only [beq_self_eq_true, if_true, Option.some.injEq]
    constructor
    · rintro rfl
      simp
    · intro h
      by_cases hlt : number < table.items.size
      · rw [Array.getElem?_push_lt hlt, ← Array.getElem?_eq_getElem hlt] at h
        rw [← table.numbers_eq_some_iff, hnew] at h
        exact absurd h (by simp)
      · have hle := (Array.getElem?_eq_some_iff.mp h).1
        simp only [Array.size_push] at hle
        omega
  · rw [if_neg (by simpa using hvalue), table.numbers_eq_some_iff]
    by_cases hlt : number < table.items.size
    · rw [Array.getElem?_push_lt hlt, ← Array.getElem?_eq_getElem hlt]
    · by_cases heq : number = table.items.size
      · subst heq
        simp [hvalue]
      · rw [Array.getElem?_eq_none (by omega), Array.getElem?_eq_none (by simp; omega)]

/-- The number of a value, and the table in which it has that number. A value that has none gets
the next one. -/
def intern (table : Interned α) (value : α) : Nat × Interned α :=
  let known := table.numbers[value]?
  (known.getD table.items.size,
    { items := if known.isSome then table.items else table.items.push value
      numbers :=
        if known.isSome then table.numbers else table.numbers.insert value table.items.size
      numbers_eq_some_iff := by
        cases hknown : known with
        | none => simpa using table.numbers_insert_iff hknown
        | some number => simpa using table.numbers_eq_some_iff })

theorem items_intern (table : Interned α) (value : α) :
    (table.intern value).2.items = table.items ∧
        table.items[(table.intern value).1]? = some value ∨
      (table.intern value).2.items = table.items.push value ∧
        (table.intern value).1 = table.items.size := by
  cases hknown : table.numbers[value]? with
  | none =>
      right
      simp [intern, hknown]
  | some number =>
      left
      have hitem := (table.numbers_eq_some_iff value number).mp hknown
      simp [intern, hknown, hitem]

theorem getElem?_intern (table : Interned α) (value : α) :
    (table.intern value).2.items[(table.intern value).1]? = some value := by
  rcases table.items_intern value with ⟨hitems, hvalue⟩ | ⟨hitems, hnumber⟩
  · rw [hitems]
    exact hvalue
  · rw [hitems, hnumber]
    simp

theorem getElem?_intern_of_some (table : Interned α) (value : α) {number : Nat} {other : α}
    (h : table.items[number]? = some other) :
    (table.intern value).2.items[number]? = some other := by
  rcases table.items_intern value with ⟨hitems, -⟩ | ⟨hitems, -⟩
  · rw [hitems]
    exact h
  · obtain ⟨hlt, -⟩ := Array.getElem?_eq_some_iff.mp h
    rw [hitems, Array.getElem?_push_lt hlt, ← Array.getElem?_eq_getElem hlt]
    exact h

theorem number_inj (table : Interned α) {value : α} {m n : Nat}
    (hm : table.items[m]? = some value) (hn : table.items[n]? = some value) : m = n := by
  rw [← table.numbers_eq_some_iff] at hm hn
  exact Option.some.inj (hm.symm.trans hn)

end Interned

end TypeAtlas
