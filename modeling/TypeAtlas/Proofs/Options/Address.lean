import Mathlib
import TypeAtlas.Options

namespace TypeAtlas

namespace Hexadecimal

variable {c : Char} {cs : List Char} {high value : Nat}

def lowerDigits : List Char :=
  ['0', '1', '2', '3', '4', '5', '6', '7', '8', '9', 'a', 'b', 'c', 'd', 'e', 'f']

/-- A digit of ASCII, of either letter case. -/
def IsDigit (c : Char) : Prop :=
  c.toLower ∈ lowerDigits

instance (c : Char) : Decidable (IsDigit c) :=
  inferInstanceAs (Decidable (c.toLower ∈ lowerDigits))

/-- The place of a digit among the digits. -/
def digitOf (c : Char) : Nat :=
  lowerDigits.idxOf c.toLower

/-- The number that some digits write, most significant first. -/
def numberOf (cs : List Char) : Nat :=
  Nat.ofDigits 16 (cs.reverse.map digitOf)

theorem forall_ascii {p : Char → Prop} (h : ∀ n < 128, p (Char.ofNat n))
    (hc : c.toNat < 128) : p c := by
  have hchar := h c.toNat hc
  rwa [Char.ofNat_toNat] at hchar

theorem toLower_of_not_ascii (hc : 128 ≤ c.toNat) : c.toLower = c := by
  apply dif_neg
  rintro ⟨-, hle⟩
  have hlt : c.toNat ≤ 90 := UInt32.le_iff_toNat_le.mp hle
  omega

theorem not_le_of_not_ascii (hc : 128 ≤ c.toNat) {d : Char} (hd : d.toNat < 128) : ¬c ≤ d := by
  rw [Char.le_def, UInt32.le_iff_toNat_le]
  change ¬c.toNat ≤ d.toNat
  omega

theorem lt_of_isDigit (h : IsDigit c) : c.toNat < 128 := by
  by_contra hc
  have hlower : c ∈ lowerDigits := by
    rwa [IsDigit, toLower_of_not_ascii (by omega)] at h
  have hall : ∀ d ∈ lowerDigits, d.toNat < 128 := by simp [lowerDigits]
  exact hc (hall c hlower)

theorem digitValue?_eq (c : Char) :
    digitValue? c = if IsDigit c then some (digitOf c) else none := by
  by_cases hc : c.toNat < 128
  · exact forall_ascii (p := fun c =>
      digitValue? c = if IsDigit c then some (digitOf c) else none) (by decide) hc
  · have hnone : digitValue? c = none := by
      have hge : 128 ≤ c.toNat := Nat.le_of_not_lt hc
      simp [digitValue?, not_le_of_not_ascii hge]
    rw [hnone, if_neg fun h => hc (lt_of_isDigit h)]

theorem numberOf_cons (c : Char) (cs : List Char) :
    numberOf (c :: cs) = 16 ^ cs.length * digitOf c + numberOf cs := by
  simp [numberOf, Nat.ofDigits_append, Nat.add_comm]

theorem valueFrom?_eq_some_iff :
    valueFrom? high cs = some value ↔
      (∀ c ∈ cs, IsDigit c) ∧ 16 ^ cs.length * high + numberOf cs = value := by
  induction cs generalizing high with
  | nil => simp [valueFrom?, numberOf]
  | cons c cs ih =>
      rw [valueFrom?, digitValue?_eq, numberOf_cons, List.forall_mem_cons]
      by_cases hdigit : IsDigit c
      · rw [if_pos hdigit]
        dsimp only
        rw [ih, and_iff_right hdigit]
        refine and_congr_right fun _ => ?_
        have hsum : 16 ^ cs.length * (16 * high + digitOf c) + numberOf cs =
            16 ^ (c :: cs).length * high + (16 ^ cs.length * digitOf c + numberOf cs) := by
          rw [List.length_cons]
          ring
        rw [hsum]
      · simp [hdigit]

theorem toNat?_eq_some_iff :
    toNat? cs = some value ↔ cs ≠ [] ∧ (∀ c ∈ cs, IsDigit c) ∧ numberOf cs = value := by
  cases cs with
  | nil => simp [toNat?]
  | cons c cs => simp [toNat?, valueFrom?_eq_some_iff]

theorem digitOf_lt (h : IsDigit c) : digitOf c < 16 :=
  List.idxOf_lt_length_of_mem h

theorem numberOf_lt (h : ∀ c ∈ cs, IsDigit c) : numberOf cs < 16 ^ cs.length := by
  have hlt := Nat.ofDigits_lt_base_pow_length (b := 16) (l := cs.reverse.map digitOf) (by decide)
  rw [List.length_map, List.length_reverse] at hlt
  apply hlt
  intro d hd
  obtain ⟨c, hc, rfl⟩ := List.mem_map.mp hd
  exact digitOf_lt (h c (List.mem_reverse.mp hc))

theorem digits_spec (n : Nat) : (∀ c ∈ digits n, IsDigit c) ∧ numberOf (digits n) = n := by
  obtain ⟨hdigits, hnumber⟩ := valueFrom?_eq_some_iff.mp (valueFrom?_digits n)
  rw [Nat.mul_zero, Nat.zero_add] at hnumber
  exact ⟨hdigits, hnumber⟩

theorem length_digits_le {n count : Nat} (h : n < 16 ^ (count + 1)) :
    (digits n).length ≤ count + 1 := by
  induction count generalizing n with
  | zero =>
      rw [digits, if_pos (by simpa using h)]
      exact Nat.le_refl 1
  | succ count ih =>
      rw [digits]
      split
      · exact Nat.le_add_left 1 _
      · have hhigh : n / 16 < 16 ^ (count + 1) := by
          apply Nat.div_lt_of_lt_mul
          rwa [← Nat.pow_succ']
        rw [List.length_append, List.length_singleton]
        exact Nat.add_le_add_right (ih hhigh) 1

theorem map_toLower_digits (n : Nat) : (digits n).map Char.toLower = digits n := by
  have hdigit : ∀ d < 16, (digitChar d).toLower = digitChar d := by decide
  induction n using Nat.strongRecOn with
  | ind n ih =>
      rw [digits]
      split
      · next hlt => rw [List.map_singleton, hdigit n hlt]
      · next hge =>
          rw [List.map_append, ih (n / 16) (by omega), List.map_singleton,
            hdigit (n % 16) (Nat.mod_lt n (by decide))]

theorem numberOf_replicate_zero (count : Nat) (cs : List Char) :
    numberOf (List.replicate count '0' ++ cs) = numberOf cs := by
  induction count with
  | zero => rfl
  | succ count ih =>
      rw [List.replicate_succ, List.cons_append, numberOf_cons, ih]
      simp [digitOf, lowerDigits]

theorem eq_toLower_or_eq_toUpper (c : Char) : c = c.toLower ∨ c = c.toLower.toUpper := by
  by_cases hc : c.toNat < 128
  · exact forall_ascii (p := fun c => c = c.toLower ∨ c = c.toLower.toUpper) (by decide) hc
  · exact Or.inl (toLower_of_not_ascii (Nat.le_of_not_lt hc)).symm

theorem toLower_toLower (c : Char) : c.toLower.toLower = c.toLower := by
  by_cases hc : c.toNat < 128
  · exact forall_ascii (p := fun c => c.toLower.toLower = c.toLower) (by decide) hc
  · rw [toLower_of_not_ascii (Nat.le_of_not_lt hc), toLower_of_not_ascii (Nat.le_of_not_lt hc)]

theorem isDigit_toLower_iff : IsDigit c.toLower ↔ IsDigit c := by
  rw [IsDigit, toLower_toLower, IsDigit]

theorem numberOf_map_toLower (cs : List Char) : numberOf (cs.map Char.toLower) = numberOf cs := by
  have hcase : digitOf ∘ Char.toLower = digitOf := by
    funext c
    simp only [Function.comp_apply, digitOf, toLower_toLower]
  rw [numberOf, numberOf, ← List.map_reverse, List.map_map, hcase]

end Hexadecimal

namespace Text

variable {before after cs : List Char}

theorem exists_surrounding (cs : List Char) : ∃ before after,
    (∀ c ∈ before, isBlank c = true) ∧ (∀ c ∈ after, isBlank c = true) ∧
      before ++ trim cs ++ after = cs := by
  refine ⟨cs.takeWhile isBlank, ((cs.dropWhile isBlank).reverse.takeWhile isBlank).reverse,
    fun _ => List.mem_takeWhile_imp, ?_, ?_⟩
  · intro c hc
    exact List.mem_takeWhile_imp (List.mem_reverse.mp hc)
  · rw [trim, List.append_assoc, ← List.reverse_append, List.takeWhile_append_dropWhile,
      List.reverse_reverse, List.takeWhile_append_dropWhile]

theorem dropWhile_append_of_ne_nil (rest : List Char) (hne : cs ≠ [])
    (hcs : ∀ c ∈ cs, isBlank c = false) : (cs ++ rest).dropWhile isBlank = cs ++ rest := by
  cases cs with
  | nil => exact absurd rfl hne
  | cons c cs => simp [hcs c List.mem_cons_self]

theorem trim_surrounded (hbefore : ∀ c ∈ before, isBlank c = true)
    (hafter : ∀ c ∈ after, isBlank c = true) (hne : cs ≠ [])
    (hcs : ∀ c ∈ cs, isBlank c = false) : trim (before ++ cs ++ after) = cs := by
  have hback : ∀ c ∈ after.reverse, isBlank c = true := fun c hc =>
    hafter c (List.mem_reverse.mp hc)
  have hlast := dropWhile_append_of_ne_nil [] (mt List.reverse_eq_nil_iff.mp hne)
    fun c hc => hcs c (List.mem_reverse.mp hc)
  rw [List.append_nil] at hlast
  rw [trim, List.append_assoc, List.dropWhile_append_of_pos hbefore,
    dropWhile_append_of_ne_nil after hne hcs, List.reverse_append,
    List.dropWhile_append_of_pos hback, hlast, List.reverse_reverse]

end Text

namespace Address

open Hexadecimal

variable {cs ds mark : List Char} {value : Nat}

/-- The marks that may stand in front of the digits of an address. -/
def marks : List (List Char) :=
  [[], ['0', 'x'], ['0', 'X']]

/-- A text writes an address: one to sixteen digits behind a mark or none, with blanks around. -/
inductive Writes : List Char → Nat → Prop
  | intro {before mark digits after : List Char}
      (hbefore : ∀ c ∈ before, Text.isBlank c = true)
      (hafter : ∀ c ∈ after, Text.isBlank c = true)
      (hmark : mark ∈ marks) (hdigits : ∀ c ∈ digits, IsDigit c)
      (hlength : 1 ≤ digits.length ∧ digits.length ≤ 16)
      (hvalue : 1 ≤ numberOf digits ∧ numberOf digits ≤ 2 ^ 64 - 1) :
      Writes (before ++ (mark ++ digits) ++ after) (numberOf digits)

theorem isBlank_eq_false_of_isDigit {c : Char} (h : IsDigit c) : Text.isBlank c = false :=
  forall_ascii (p := fun c => IsDigit c → Text.isBlank c = false) (by decide)
    (lt_of_isDigit h) h

theorem exists_mark (cs : List Char) : ∃ mark ∈ marks, mark ++ dropMark cs = cs := by
  unfold dropMark
  split
  · exact ⟨['0', 'x'], by simp [marks], rfl⟩
  · exact ⟨['0', 'X'], by simp [marks], rfl⟩
  · exact ⟨[], by simp [marks], rfl⟩

theorem dropMark_append (hmark : mark ∈ marks) (hdigits : ∀ c ∈ ds, IsDigit c) :
    dropMark (mark ++ ds) = ds := by
  simp only [marks, List.mem_cons, List.not_mem_nil, or_false] at hmark
  rcases hmark with rfl | rfl | rfl
  · have hx : ¬IsDigit 'x' ∧ ¬IsDigit 'X' := by decide
    rw [List.nil_append]
    unfold dropMark
    split
    · exact absurd (hdigits 'x' (by simp)) hx.1
    · exact absurd (hdigits 'X' (by simp)) hx.2
    · rfl
  · rfl
  · rfl

theorem isBlank_eq_false_of_mem_marks (hmark : mark ∈ marks) :
    ∀ c ∈ mark, Text.isBlank c = false := by
  have hall : ∀ mark ∈ marks, ∀ c ∈ mark, Text.isBlank c = false := by
    simp [marks, Text.isBlank]
  exact hall mark hmark

theorem numberOf_le (hdigits : ∀ c ∈ ds, IsDigit c) (h : ds.length ≤ 16) :
    numberOf ds ≤ 2 ^ 64 - 1 := by
  have hlt := numberOf_lt hdigits
  have hpow : 16 ^ ds.length ≤ 16 ^ 16 := Nat.pow_le_pow_right (by decide) h
  omega

theorem ofChars?_eq_some_iff : ofChars? cs = some value ↔ Writes cs value := by
  unfold ofChars?
  dsimp only
  constructor
  · intro h
    split at h
    · cases h
    · next hlength =>
        rw [Option.filter_eq_some_iff, toNat?_eq_some_iff, decide_eq_true_eq] at h
        obtain ⟨⟨hne, hdigits, rfl⟩, hpos⟩ := h
        obtain ⟨before, after, hbefore, hafter, hcs⟩ := Text.exists_surrounding cs
        obtain ⟨mark, hmark, htrim⟩ := exists_mark (Text.trim cs)
        have hle : (dropMark (Text.trim cs)).length ≤ 16 := Nat.le_of_not_lt hlength
        have hwrites := Writes.intro hbefore hafter hmark hdigits
          ⟨List.length_pos_iff.mpr hne, hle⟩ ⟨hpos, numberOf_le hdigits hle⟩
        rwa [htrim, hcs] at hwrites
  · rintro @⟨before, mark, digits, after, hbefore, hafter, hmark, hdigits, hlength, hvalue⟩
    obtain ⟨hpos, hle⟩ := hlength
    have hne : digits ≠ [] := List.length_pos_iff.mp hpos
    have hmost : ¬mostDigits < digits.length := Nat.not_lt.mpr hle
    rw [Text.trim_surrounded hbefore hafter (List.append_ne_nil_of_right_ne_nil _ hne),
      dropMark_append hmark hdigits, if_neg hmost, Option.filter_eq_some_iff,
      toNat?_eq_some_iff, decide_eq_true_eq]
    · exact ⟨⟨hne, hdigits, rfl⟩, hvalue.1⟩
    · intro c hc
      rcases List.mem_append.mp hc with hc | hc
      · exact isBlank_eq_false_of_mem_marks hmark c hc
      · exact isBlank_eq_false_of_isDigit (hdigits c hc)

theorem parse_text_eq_ok_iff {text : String} :
    parse (.text text) = .ok value ↔ Writes text.toList value := by
  rw [← ofChars?_eq_some_iff, parse]
  cases ofChars? text.toList <;> simp

theorem parse_integer_eq_ok_iff {number : Int} :
    parse (.integer number) = .ok value ↔
      (value : Int) = number ∧ 1 ≤ number ∧ number ≤ 2 ^ 64 - 1 := by
  rw [parse, greatest]
  split
  · next hrange =>
      rw [Except.ok.injEq]
      omega
  · next hrange =>
      simp only [reduceCtorEq, false_iff]
      omega

theorem eq_invalid_of_parse {setting : Setting} {fault : Fault}
    (h : parse setting = .error fault) : fault = invalid setting := by
  unfold parse at h
  split at h
  · split at h
    · cases h
    · exact (Except.error.inj h).symm
  · split at h
    · cases h
    · exact (Except.error.inj h).symm
  · exact (Except.error.inj h).symm

theorem mem_marks_of_map_toLower {front : List Char} (hmark : mark ∈ [[], ['0', 'x']])
    (h : front.map Char.toLower = mark) : front ∈ marks := by
  rw [List.mem_pair] at hmark
  rcases hmark with rfl | rfl
  · rw [List.map_eq_nil_iff] at h
    simp [h, marks]
  · obtain ⟨zero, front, rfl, hzero, h⟩ := List.map_eq_cons_iff.mp h
    obtain ⟨x, front, rfl, hx, h⟩ := List.map_eq_cons_iff.mp h
    obtain rfl := List.map_eq_nil_iff.mp h
    have hzero' := eq_toLower_or_eq_toUpper zero
    have hx' := eq_toLower_or_eq_toUpper x
    rw [hzero] at hzero'
    rw [hx] at hx'
    rcases hzero' with rfl | rfl <;> rcases hx' with rfl | rfl <;> simp [marks]

theorem writes_of_map_toLower {zeros : Nat} (hmark : mark ∈ [[], ['0', 'x']])
    (hlength : zeros + (digits value).length ≤ 16) (hvalue : 1 ≤ value ∧ value ≤ 2 ^ 64 - 1)
    (h : cs.map Char.toLower = mark ++ (List.replicate zeros '0' ++ digits value)) :
    Writes cs value := by
  obtain ⟨front, back, rfl, hfront, hback⟩ := List.map_eq_append_iff.mp h
  obtain ⟨hdigits, hnumber⟩ := digits_spec value
  have hzero : IsDigit '0' := by decide
  have hall : ∀ c ∈ back, IsDigit c := by
    intro c hc
    have hlower : c.toLower ∈ List.replicate zeros '0' ++ digits value :=
      hback ▸ List.mem_map_of_mem hc
    rw [← isDigit_toLower_iff]
    rcases List.mem_append.mp hlower with hc | hc
    · rwa [(List.mem_replicate.mp hc).2]
    · exact hdigits _ hc
  have hsame : numberOf back = value := by
    rw [← numberOf_map_toLower, hback, numberOf_replicate_zero, hnumber]
  have hsize : back.length = zeros + (digits value).length := by
    rw [← List.length_map (f := Char.toLower), hback, List.length_append, List.length_replicate]
  have hpos := List.length_pos_iff.mpr (digits_ne_nil value)
  have hwrites := @Writes.intro [] front back [] (by simp) (by simp)
    (mem_marks_of_map_toLower hmark hfront) hall ⟨by omega, by omega⟩ (hsame.symm ▸ hvalue)
  rwa [hsame, List.nil_append, List.append_nil] at hwrites

/-- A text is taken as an address exactly if it writes one, and an integer exactly if it is positive
and fits 64 bits. Everything else is an invalid option. The digits of an address may be in either
letter case and behind zeros, with a mark or without one; so an address is read back from the form
in which it is shown. -/
theorem parse_reads_addresses :
    (∀ (text : String) (value : Nat),
      parse (.text text) = .ok value ↔ Writes text.toList value) ∧
    (∀ (number : Int) (value : Nat),
      parse (.integer number) = .ok value ↔
        (value : Int) = number ∧ 1 ≤ number ∧ number ≤ 2 ^ 64 - 1) ∧
    (∀ (setting : Setting) (fault : Fault), parse setting = .error fault →
      fault.kind = .invalidOption ∧ fault.message = "Invalid address: " ++ setting.shown) ∧
    ∀ value, 1 ≤ value → value ≤ 2 ^ 64 - 1 →
      parse (.text (Hexadecimal.ofNat value)) = .ok value ∧
      ∀ (text : String) (zeros : Nat), zeros + (digits value).length ≤ 16 →
        ∀ mark ∈ [[], ['0', 'x']],
          text.toList.map Char.toLower = mark ++ (List.replicate zeros '0' ++ digits value) →
            parse (.text text) = .ok value := by
  refine ⟨fun _ _ => parse_text_eq_ok_iff, fun _ _ => parse_integer_eq_ok_iff, ?_, ?_⟩
  · intro setting fault h
    rw [eq_invalid_of_parse h]
    exact ⟨rfl, rfl⟩
  · intro value hpos hle
    have hread : ∀ (text : String) (zeros : Nat), zeros + (digits value).length ≤ 16 →
        ∀ mark ∈ [[], ['0', 'x']],
          text.toList.map Char.toLower = mark ++ (List.replicate zeros '0' ++ digits value) →
            parse (.text text) = .ok value := by
      intro text zeros hlength mark hmark h
      exact parse_text_eq_ok_iff.mpr (writes_of_map_toLower hmark hlength ⟨hpos, hle⟩ h)
    have hlength : (digits value).length ≤ 16 := length_digits_le (by omega)
    have hshown : (Hexadecimal.ofNat value).toList.map Char.toLower =
        ['0', 'x'] ++ (List.replicate 0 '0' ++ digits value) := by
      rw [Hexadecimal.ofNat, String.toList_ofList, List.map_cons, List.map_cons, map_toLower_digits]
      rfl
    exact ⟨hread _ 0 (by omega) ['0', 'x'] (by simp) hshown, hread⟩

example : parse (.text " 0X00fF\t") = .ok 255 := by
  cbv

end Address

end TypeAtlas
