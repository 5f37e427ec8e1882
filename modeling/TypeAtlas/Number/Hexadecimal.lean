namespace TypeAtlas.Hexadecimal

/-- The lower-case digit of a value below sixteen. -/
def digitChar (value : Nat) : Char :=
  if value < 10 then Char.ofNat (48 + value) else Char.ofNat (87 + value)

/-- The digits of a number without leading zeros; zero has one digit. -/
def digits (n : Nat) : List Char :=
  if n < 16 then [digitChar n] else digits (n / 16) ++ [digitChar (n % 16)]
termination_by n

/-- The marked text of a number. -/
def ofNat (n : Nat) : String :=
  String.ofList ('0' :: 'x' :: digits n)

/-- A number with its mark; the sign of a negative number stands before the mark. -/
def ofInt : Int → String
  | .ofNat n => ofNat n
  | .negSucc n => "-" ++ ofNat (n + 1)

/-- The value of a digit, in either letter case. -/
def digitValue? (c : Char) : Option Nat :=
  if '0' ≤ c ∧ c ≤ '9' then some (c.toNat - 48)
  else if 'a' ≤ c ∧ c ≤ 'f' then some (c.toNat - 87)
  else if 'A' ≤ c ∧ c ≤ 'F' then some (c.toNat - 55)
  else none

/-- The number that a text of digits continues to, when `high` has been read before it. -/
def valueFrom? (high : Nat) : List Char → Option Nat
  | [] => some high
  | c :: rest =>
      match digitValue? c with
      | none => none
      | some d => valueFrom? (16 * high + d) rest

/-- The number written by a non-empty text of digits. -/
def toNat? : List Char → Option Nat
  | [] => none
  | cs => valueFrom? 0 cs

theorem digits_ne_nil (n : Nat) : digits n ≠ [] := by
  unfold digits
  split <;> simp

theorem digitValue?_digitChar {d : Nat} (h : d < 16) : digitValue? (digitChar d) = some d := by
  have : d = 0 ∨ d = 1 ∨ d = 2 ∨ d = 3 ∨ d = 4 ∨ d = 5 ∨ d = 6 ∨ d = 7 ∨ d = 8 ∨ d = 9 ∨
      d = 10 ∨ d = 11 ∨ d = 12 ∨ d = 13 ∨ d = 14 ∨ d = 15 := by omega
  rcases this with h | h | h | h | h | h | h | h | h | h | h | h | h | h | h | h <;> subst h <;> rfl

theorem valueFrom?_append (high : Nat) (xs ys : List Char) :
    valueFrom? high (xs ++ ys) = (valueFrom? high xs).bind fun n => valueFrom? n ys := by
  induction xs generalizing high with
  | nil => rfl
  | cons c xs ih =>
      simp only [List.cons_append, valueFrom?]
      cases digitValue? c with
      | none => rfl
      | some d => exact ih _

theorem valueFrom?_digits (n : Nat) : valueFrom? 0 (digits n) = some n := by
  induction n using Nat.strongRecOn with
  | ind n ih =>
      unfold digits
      split
      · next h => simp [valueFrom?, digitValue?_digitChar h]
      · next h =>
          have hdigit : digitValue? (digitChar (n % 16)) = some (n % 16) :=
            digitValue?_digitChar (Nat.mod_lt n (by omega))
          rw [valueFrom?_append, ih (n / 16) (by omega)]
          simp only [Option.bind_some, valueFrom?, hdigit, Option.some.injEq]
          omega

end TypeAtlas.Hexadecimal
