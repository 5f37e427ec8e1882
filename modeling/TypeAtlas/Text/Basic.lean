namespace TypeAtlas.Text

/-- Whether a character is blank. -/
def isBlank (c : Char) : Bool :=
  let n := c.toNat
  (0x09 ≤ n && n ≤ 0x0D) || (0x1C ≤ n && n ≤ 0x20) || n == 0x85 || n == 0xA0 || n == 0x1680 ||
    (0x2000 ≤ n && n ≤ 0x200A) || n == 0x2028 || n == 0x2029 || n == 0x202F || n == 0x205F ||
    n == 0x3000

/-- The characters from the first that is not blank to the last that is not blank. -/
def trim (cs : List Char) : List Char :=
  ((cs.dropWhile isBlank).reverse.dropWhile isBlank).reverse

theorem isBlank_of_isWhitespace {c : Char} (h : c.isWhitespace = true) : isBlank c = true := by
  simp only [Char.isWhitespace, Bool.or_eq_true, decide_eq_true_eq] at h
  rcases h with ((h | h) | h) | h <;> subst h <;> rfl

theorem trim_eq_self {cs : List Char} (hfirst : ∀ c ∈ cs.head?, isBlank c = false)
    (hlast : ∀ c ∈ cs.getLast?, isBlank c = false) : trim cs = cs := by
  have hdrop : ∀ {ds : List Char}, (∀ c ∈ ds.head?, isBlank c = false) →
      ds.dropWhile isBlank = ds := by
    intro ds h
    cases ds with
    | nil => rfl
    | cons d ds => simp [h d (by simp)]
  unfold trim
  rw [hdrop hfirst, hdrop (by simpa using hlast), List.reverse_reverse]

/-- The code points of the zeros of all scripts. -/
def decimalZeros : List Nat :=
  [
    0x30, 0x660, 0x6F0, 0x7C0, 0x966, 0x9E6, 0xA66, 0xAE6, 0xB66, 0xBE6, 0xC66, 0xCE6, 0xD66,
    0xDE6, 0xE50, 0xED0, 0xF20, 0x1040, 0x1090, 0x17E0, 0x1810, 0x1946, 0x19D0, 0x1A80, 0x1A90,
    0x1B50, 0x1BB0, 0x1C40, 0x1C50, 0xA620, 0xA8D0, 0xA900, 0xA9D0, 0xA9F0, 0xAA50, 0xABF0,
    0xFF10, 0x104A0, 0x10D30, 0x11066, 0x110F0, 0x11136, 0x111D0, 0x112F0, 0x11450, 0x114D0,
    0x11650, 0x116C0, 0x11730, 0x118E0, 0x11950, 0x11C50, 0x11D50, 0x11DA0, 0x16A60, 0x16AC0,
    0x16B50, 0x1D7CE, 0x1D7D8, 0x1D7E2, 0x1D7EC, 0x1D7F6, 0x1E140, 0x1E2F0, 0x1E950, 0x1FBF0
  ]

/-- The value of a decimal digit of any script. -/
def decimalValue? (c : Char) : Option Nat :=
  (decimalZeros.find? fun first => decide (first ≤ c.toNat) && decide (c.toNat < first + 10)).map
    fun first => c.toNat - first

theorem decimalValue?_ascii {d : Nat} (h : d < 10) :
    decimalValue? (Char.ofNat (48 + d)) = some d := by
  have : d = 0 ∨ d = 1 ∨ d = 2 ∨ d = 3 ∨ d = 4 ∨ d = 5 ∨ d = 6 ∨ d = 7 ∨ d = 8 ∨ d = 9 := by
    omega
  rcases this with h | h | h | h | h | h | h | h | h | h <;> subst h <;> rfl

/-- The character that stands for bytes that form no character. -/
def replacement : Char := Char.ofNat 0xFFFD

/-- What a first byte announces: the bits it contributes to the code point and the ranges in which
the bytes after it must lie. Overlong forms, surrogates and code points past U+10FFFF are excluded
by the range of the second byte. -/
def leading (byte : UInt8) : Option (Nat × List (UInt8 × UInt8)) :=
  let n := byte.toNat
  if n < 0x80 then some (n, [])
  else if n < 0xC2 then none
  else if n < 0xE0 then some (n - 0xC0, [(0x80, 0xBF)])
  else if n = 0xE0 then some (0, [(0xA0, 0xBF), (0x80, 0xBF)])
  else if n = 0xED then some (13, [(0x80, 0x9F), (0x80, 0xBF)])
  else if n < 0xF0 then some (n - 0xE0, [(0x80, 0xBF), (0x80, 0xBF)])
  else if n = 0xF0 then some (0, [(0x90, 0xBF), (0x80, 0xBF), (0x80, 0xBF)])
  else if n < 0xF4 then some (n - 0xF0, [(0x80, 0xBF), (0x80, 0xBF), (0x80, 0xBF)])
  else if n = 0xF4 then some (4, [(0x80, 0x8F), (0x80, 0xBF), (0x80, 0xBF)])
  else none

/-- Adds the bytes that lie in the announced ranges to a code point. The answer is the character,
or the replacement where a byte is missing or out of its range, and the bytes that were not used. -/
def continued (code : Nat) : List (UInt8 × UInt8) → List UInt8 → Char × List UInt8
  | [], bytes => (Char.ofNat code, bytes)
  | _ :: _, [] => (replacement, [])
  | (low, high) :: ranges, byte :: bytes =>
      if low ≤ byte ∧ byte ≤ high then
        continued (64 * code + byte.toNat % 64) ranges bytes
      else (replacement, byte :: bytes)

theorem length_continued_le (code : Nat) (ranges : List (UInt8 × UInt8)) (bytes : List UInt8) :
    (continued code ranges bytes).2.length ≤ bytes.length := by
  induction ranges generalizing code bytes with
  | nil => simp [continued]
  | cons range ranges ih =>
      cases bytes with
      | nil => simp [continued]
      | cons byte bytes =>
          simp only [continued]
          split
          · exact Nat.le_succ_of_le (ih _ _)
          · simp

/-- The first character that some bytes write, and the bytes behind it. -/
def firstChar (byte : UInt8) (bytes : List UInt8) : Char × List UInt8 :=
  match leading byte with
  | none => (replacement, bytes)
  | some (code, ranges) => continued code ranges bytes

theorem length_firstChar_le (byte : UInt8) (bytes : List UInt8) :
    (firstChar byte bytes).2.length ≤ bytes.length := by
  unfold firstChar
  split
  · exact Nat.le_refl _
  · exact length_continued_le _ _ _

def decodeChars : List UInt8 → List Char
  | [] => []
  | byte :: bytes =>
      have := length_firstChar_le byte bytes
      (firstChar byte bytes).1 :: decodeChars (firstChar byte bytes).2
termination_by bytes => bytes.length

/-- The text that some bytes write. What writes no character is replaced. -/
def decode (bytes : List UInt8) : String :=
  String.ofList (decodeChars bytes)

/-- The text that some bytes write. Bytes in which a part would have to be replaced write none. -/
def decode? (bytes : List UInt8) : Option String :=
  if (decode bytes).toUTF8.toList = bytes then some (decode bytes) else none

theorem toUTF8_of_decode? {bytes : List UInt8} {text : String} (h : decode? bytes = some text) :
    text.toUTF8.toList = bytes := by
  unfold decode? at h
  split at h
  · next hbytes =>
      obtain rfl := Option.some.inj h
      exact hbytes
  · cases h

theorem decodeChars_nil : decodeChars [] = [] := by
  simp [decodeChars]

theorem decodeChars_cons (byte : UInt8) (bytes : List UInt8) :
    decodeChars (byte :: bytes) =
      (firstChar byte bytes).1 :: decodeChars (firstChar byte bytes).2 := by
  rw [decodeChars]

end TypeAtlas.Text
