import TypeAtlas.Proofs.Bytes.Places
import TypeAtlas.Text.Basic

namespace TypeAtlas.Text

variable {code value : Nat}

theorem toNat_ofNat (h : value < 256) : (UInt8.ofNat value).toNat = value := by
  rw [UInt8.toNat_ofNat']
  omega

section Leading

theorem leading_one (h : value < 0x80) : leading (UInt8.ofNat value) = some (value, []) := by
  simp only [leading, toNat_ofNat (show value < 256 by omega), if_pos h]

theorem leading_two (hlow : 2 ≤ code) (hhigh : code < 32) :
    leading (UInt8.ofNat (code + 0xC0)) = some (code, [(0x80, 0xBF)]) := by
  simp only [leading, toNat_ofNat (show code + 0xC0 < 256 by omega)]
  rw [if_neg (by omega), if_neg (by omega), if_pos (by omega), Nat.add_sub_cancel]

theorem leading_three (code second : Nat) (hcode : code < 16) (hsecond : second < 64)
    (hlong : code = 0 → 32 ≤ second) (hscalar : code = 13 → second < 32) :
    ∃ low high, leading (UInt8.ofNat (code + 0xE0)) = some (code, [(low, high), (0x80, 0xBF)]) ∧
      low.toNat ≤ second + 128 ∧ second + 128 ≤ high.toNat := by
  simp only [leading, toNat_ofNat (show code + 0xE0 < 256 by omega)]
  rw [if_neg (by omega), if_neg (by omega), if_neg (by omega)]
  by_cases hzero : code = 0
  · subst hzero
    exact ⟨0xA0, 0xBF, rfl, by have := hlong rfl; simp; omega, by simp; omega⟩
  · rw [if_neg (by omega)]
    by_cases hthirteen : code = 13
    · subst hthirteen
      exact ⟨0x80, 0x9F, rfl, by simp, by have := hscalar rfl; simp; omega⟩
    · rw [if_neg (by omega), if_pos (by omega), Nat.add_sub_cancel]
      exact ⟨0x80, 0xBF, rfl, by simp, by simp; omega⟩

theorem leading_four (code second : Nat) (hcode : code ≤ 4) (hsecond : second < 64)
    (hlong : code = 0 → 16 ≤ second) (hlast : code = 4 → second < 16) :
    ∃ low high, leading (UInt8.ofNat (code + 0xF0)) =
        some (code, [(low, high), (0x80, 0xBF), (0x80, 0xBF)]) ∧
      low.toNat ≤ second + 128 ∧ second + 128 ≤ high.toNat := by
  simp only [leading, toNat_ofNat (show code + 0xF0 < 256 by omega)]
  rw [if_neg (by omega), if_neg (by omega), if_neg (by omega), if_neg (by omega), if_neg (by omega),
    if_neg (by omega)]
  by_cases hzero : code = 0
  · subst hzero
    exact ⟨0x90, 0xBF, rfl, by have := hlong rfl; simp; omega, by simp; omega⟩
  · rw [if_neg (by omega)]
    by_cases hfour : code = 4
    · subst hfour
      exact ⟨0x80, 0x8F, rfl, by simp, by have := hlast rfl; simp; omega⟩
    · rw [if_pos (by omega), Nat.add_sub_cancel]
      exact ⟨0x80, 0xBF, rfl, by simp, by simp; omega⟩

end Leading

theorem continued_cons {low high : UInt8} {ranges : List (UInt8 × UInt8)} {bytes : List UInt8}
    (hlow : low.toNat ≤ value) (hhigh : value ≤ high.toNat) :
    continued code ((low, high) :: ranges) (UInt8.ofNat value :: bytes) =
      continued (64 * code + value % 64) ranges bytes := by
  have hlt := high.toNat_lt
  have hvalue := toNat_ofNat (show value < 256 by omega)
  have hrange : low ≤ UInt8.ofNat value ∧ UInt8.ofNat value ≤ high := by
    rw [UInt8.le_iff_toNat_le, UInt8.le_iff_toNat_le, hvalue]
    exact ⟨hlow, hhigh⟩
  rw [continued, if_pos hrange, hvalue]

theorem continued_cons_any {bits : Nat} {ranges : List (UInt8 × UInt8)} {bytes : List UInt8}
    (hbits : bits < 64) :
    continued code ((0x80, 0xBF) :: ranges) (UInt8.ofNat (bits + 128) :: bytes) =
      continued (64 * code + bits) ranges bytes := by
  rw [continued_cons (by simp) (by simp; omega)]
  congr 2
  omega

theorem continued_nil {bytes : List UInt8} :
    continued code [] bytes = (Char.ofNat code, bytes) := by
  rw [continued]

/-- The bytes of a character write it, whatever comes after them. -/
theorem decodeChars_utf8EncodeChar (c : Char) (rest : List UInt8) :
    decodeChars (String.utf8EncodeChar c ++ rest) = c :: decodeChars rest := by
  have hvalid : c.val.toNat < 0xD800 ∨ 0xDFFF < c.val.toNat ∧ c.val.toNat < 0x110000 := c.valid
  have hchar : Char.ofNat c.val.toNat = c := Char.ofNat_toNat c
  unfold String.utf8EncodeChar
  generalize c.val.toNat = v at *
  dsimp only
  -- The length of the encoding decides what the first byte announces.
  split
  · rw [List.singleton_append, decodeChars_cons, firstChar, leading_one (by omega)]
    simp only [continued_nil, hchar]
  · split
    · have hcode : 64 * (v / 64 % 32) + v % 64 = v := by omega
      rw [List.cons_append, List.singleton_append, decodeChars_cons, firstChar,
        leading_two (by omega) (by omega)]
      simp only [continued_cons_any (show v % 64 < 64 by omega), continued_nil, hcode, hchar]
    · split
      · obtain ⟨low, high, hleading, hlow, hhigh⟩ :=
          leading_three (v / 4096 % 16) (v / 64 % 64) (by omega) (by omega) (by omega) (by omega)
        have hcode : 64 * (64 * (v / 4096 % 16) + (v / 64 % 64 + 128) % 64) + v % 64 = v := by omega
        rw [List.cons_append, List.cons_append, List.singleton_append, decodeChars_cons, firstChar,
          hleading]
        simp only [continued_cons hlow hhigh, continued_cons_any (show v % 64 < 64 by omega),
          continued_nil, hcode, hchar]
      · obtain ⟨low, high, hleading, hlow, hhigh⟩ :=
          leading_four (v / 262144 % 8) (v / 4096 % 64) (by omega) (by omega) (by omega) (by omega)
        have hcode : 64 * (64 * (64 * (v / 262144 % 8) + (v / 4096 % 64 + 128) % 64) +
            v / 64 % 64) + v % 64 = v := by omega
        rw [List.cons_append, List.cons_append, List.cons_append, List.singleton_append,
          decodeChars_cons, firstChar, hleading]
        simp only [continued_cons hlow hhigh, continued_cons_any (show v / 64 % 64 < 64 by omega),
          continued_cons_any (show v % 64 < 64 by omega), continued_nil, hcode, hchar]

theorem decodeChars_flatMap (chars : List Char) :
    decodeChars (chars.flatMap String.utf8EncodeChar) = chars := by
  induction chars with
  | nil => exact decodeChars_nil
  | cons c chars ih => rw [List.flatMap_cons, decodeChars_utf8EncodeChar, ih]

theorem toList_toUTF8 (text : String) :
    text.toUTF8.toList = text.toList.flatMap String.utf8EncodeChar := by
  have hencoded : text.toUTF8 = (text.toList.flatMap String.utf8EncodeChar).toByteArray := by
    conv_lhs => rw [← String.ofList_toList (s := text)]
    rfl
  rw [hencoded, Bytes.toList_toByteArray]

theorem decode_toUTF8 (text : String) : decode text.toUTF8.toList = text := by
  rw [decode, toList_toUTF8, decodeChars_flatMap, String.ofList_toList]

end TypeAtlas.Text
