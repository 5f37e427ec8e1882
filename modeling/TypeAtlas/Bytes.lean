import TypeAtlas.Text.Basic
import TypeAtlas.Text.Quoted

namespace TypeAtlas.Bytes

/-- The byte at a place; one past the end counts as zero. -/
def byteAt (data : ByteArray) (place : Nat) : UInt8 :=
  if h : place < data.size then data[place] else 0

/-- The number that `width` bytes write, least significant byte first. -/
def littleEndian (data : ByteArray) (place : Nat) : (width : Nat) → Nat
  | 0 => 0
  | width + 1 => (byteAt data place).toNat + 256 * littleEndian data (place + 1) width

/-- The number that `width` bytes write after `high`, most significant byte first. -/
def bigEndianFrom (high : Nat) (data : ByteArray) (place : Nat) : (width : Nat) → Nat
  | 0 => high
  | width + 1 => bigEndianFrom (256 * high + (byteAt data place).toNat) data (place + 1) width

/-- The number that `width` bytes write, most significant byte first. -/
def bigEndian (data : ByteArray) (place width : Nat) : Nat :=
  bigEndianFrom 0 data place width

/-- Which byte of a word comes first. -/
inductive ByteOrder
  /-- The least significant byte. -/
  | little
  /-- The most significant byte. -/
  | big
  deriving DecidableEq

/-- The number that `width` bytes write in some byte order. -/
def number (order : ByteOrder) (data : ByteArray) (place width : Nat) : Nat :=
  match order with
  | .little => littleEndian data place width
  | .big => bigEndian data place width

/-- The bytes of a number, least significant byte first; what does not fit the width is lost. -/
def ofNat (value : Nat) : (width : Nat) → List UInt8
  | 0 => []
  | width + 1 => UInt8.ofNat (value % 256) :: ofNat (value / 256) width

/-- An unsigned number of `size` bytes as the signed one with the same bits. Numbers below the
middle of the range stay. -/
def toSigned (value : Int) (size : Nat) : Int :=
  if value < Nat.pow 2 (8 * size - 1) then value else value - Nat.pow 2 (8 * size)

/-- The part of a buffer that starts at a place, cut short where the buffer ends. -/
def slice (data : ByteArray) (place size : Nat) : ByteArray :=
  data.extract place (place + size)

/-- Whether a range of bytes lies in a buffer. -/
def inBounds (data : ByteArray) (offset size : Int) : Bool :=
  decide (0 ≤ offset) && decide (0 ≤ size) && decide (offset + size ≤ data.size)

theorem length_ofNat (value width : Nat) : (ofNat value width).length = width := by
  induction width generalizing value with
  | zero => rfl
  | succ width ih => simp [ofNat, ih]

/-- Whether some bytes stand at a place. -/
def matchesAt (data : ByteArray) (place : Nat) : List UInt8 → Bool
  | [] => true
  | byte :: rest =>
      decide (place < data.size) && byteAt data place == byte && matchesAt data (place + 1) rest

/-- The places, of `count` many from a place on, at which some bytes stand, in ascending order. -/
def occurrencesFrom (data : ByteArray) (needle : List UInt8) (place : Nat) :
    (count : Nat) → List Nat
  | 0 => []
  | count + 1 =>
      if matchesAt data place needle then
        place :: occurrencesFrom data needle (place + 1) count
      else occurrencesFrom data needle (place + 1) count

/-- The places between `start` and `stop` at which some bytes stand and end by `stop`. -/
def occurrences (data : ByteArray) (needle : List UInt8) (start stop : Nat) : List Nat :=
  occurrencesFrom data needle start (stop + 1 - start - needle.length)

theorem mem_occurrencesFrom {data : ByteArray} {needle : List UInt8} {place count p : Nat} :
    p ∈ occurrencesFrom data needle place count ↔
      place ≤ p ∧ p < place + count ∧ matchesAt data p needle = true := by
  induction count generalizing place with
  | zero =>
      simp only [occurrencesFrom, List.not_mem_nil, false_iff]
      omega
  | succ count ih =>
      simp only [occurrencesFrom]
      split
      · next h =>
          rw [List.mem_cons, ih]
          constructor
          · rintro (rfl | ⟨hlow, hhigh, hmatch⟩)
            · exact ⟨Nat.le_refl _, by omega, h⟩
            · exact ⟨by omega, by omega, hmatch⟩
          · rintro ⟨hlow, hhigh, hmatch⟩
            by_cases hp : p = place
            · exact Or.inl hp
            · exact Or.inr ⟨by omega, by omega, hmatch⟩
      · next h =>
          rw [ih]
          constructor
          · rintro ⟨hlow, hhigh, hmatch⟩
            exact ⟨by omega, by omega, hmatch⟩
          · rintro ⟨hlow, hhigh, hmatch⟩
            have hne : p ≠ place := by
              rintro rfl
              exact h hmatch
            exact ⟨by omega, by omega, hmatch⟩

end TypeAtlas.Bytes

namespace TypeAtlas

namespace Bytes

/-- The place of the first zero byte among the `count` bytes from a place on. -/
def terminator? (data : ByteArray) (place : Nat) : (count : Nat) → Option Nat
  | 0 => none
  | count + 1 =>
      if place < data.size then
        if byteAt data place = 0 then some place else terminator? data (place + 1) count
      else none

/-- The bytes from a place up to the first zero byte, which has to follow within `limit` bytes. -/
def cString? (data : ByteArray) (place limit : Nat) : Option ByteArray :=
  (terminator? data place limit).map fun stop => data.extract place stop

theorem terminator?_spec {data : ByteArray} {place count stop : Nat}
    (h : terminator? data place count = some stop) :
    place ≤ stop ∧ stop < place + count ∧ stop < data.size ∧ byteAt data stop = 0 := by
  induction count generalizing place with
  | zero => simp [terminator?] at h
  | succ count ih =>
      simp only [terminator?] at h
      split at h
      · next hsize =>
          split at h
          · next hzero =>
              obtain rfl := Option.some.inj h
              exact ⟨Nat.le_refl _, by omega, hsize, hzero⟩
          · obtain ⟨hlow, hhigh, hin, hbyte⟩ := ih h
            exact ⟨by omega, by omega, hin, hbyte⟩
      · simp at h

end Bytes

namespace Name

/-- The name that some bytes write. Bytes that write no text are shown as bytes. -/
def ofBytes (bytes : List UInt8) : String :=
  (Text.decode? bytes).getD (String.ofList (Text.quotedBytes bytes))

/-- The name in a field of a fixed width, which a zero byte may end early. -/
def fixed (data : ByteArray) (place width : Nat) : String :=
  ofBytes ((Bytes.slice data place width).toList.takeWhile (· != 0))

/-- The text at a place of a table of texts, which has to end in the file. -/
def text? (data : ByteArray) (place : Nat) : Option String :=
  (Bytes.cString? data place (data.size - place)).map fun bytes => Text.decode bytes.toList

end Name

end TypeAtlas
