import Mathlib
import TypeAtlas.Bytes

namespace TypeAtlas.Bytes

variable {data : ByteArray} {place : Nat} {bytes : List UInt8}

theorem byteAt_of_lt (h : place < data.size) : byteAt data place = data[place] :=
  dif_pos h

theorem toList_eq (data : ByteArray) : data.toList = data.data.toList := by
  have hloop : ∀ place found,
      ByteArray.toList.loop data place found = found.reverse ++ data.data.toList.drop place := by
    intro place found
    fun_induction ByteArray.toList.loop data place found with
    | case1 place found h ih =>
        have hlt : place < data.data.toList.length := by simpa using h
        rw [ih, List.drop_eq_getElem_cons hlt]
        simp [ByteArray.get!, h]
    | case2 place found h =>
        rw [List.drop_eq_nil_of_le (by simpa using Nat.le_of_not_lt h), List.append_nil]
  rw [ByteArray.toList, hloop, List.reverse_nil, List.nil_append, List.drop_zero]

theorem toList_toByteArray (bytes : List UInt8) : bytes.toByteArray.toList = bytes := by
  rw [toList_eq, List.toList_data_toByteArray]

theorem toByteArray_toList (data : ByteArray) : data.toList.toByteArray = data := by
  refine ByteArray.ext (Array.toList_inj.mp ?_)
  rw [List.toList_data_toByteArray, toList_eq]

theorem length_toList (data : ByteArray) : data.toList.length = data.size := by
  rw [toList_eq]
  rfl

theorem length_toList_concat (data : ByteArray) (last : UInt8) :
    (data.toList ++ [last]).length = data.size + 1 := by
  rw [List.length_append, length_toList, List.length_singleton]

section Matches

theorem matchesAt_append (bytes rest : List UInt8) :
    matchesAt data place (bytes ++ rest) =
      (matchesAt data place bytes && matchesAt data (place + bytes.length) rest) := by
  induction bytes generalizing place with
  | nil => simp [matchesAt]
  | cons byte bytes ih =>
      simp only [List.cons_append, matchesAt, ih, Bool.and_assoc, List.length_cons]
      rw [Nat.add_assoc, Nat.add_comm 1]

theorem matchesAt_iff : matchesAt data place bytes = true ↔
    ∀ (i : Nat) (h : i < bytes.length), place + i < data.size ∧
      byteAt data (place + i) = bytes[i] := by
  induction bytes generalizing place with
  | nil => simp [matchesAt]
  | cons byte bytes ih =>
      simp only [matchesAt, Bool.and_eq_true, decide_eq_true_eq, beq_iff_eq, ih]
      constructor
      · rintro ⟨hfirst, hrest⟩ i hi
        cases i with
        | zero => exact hfirst
        | succ i =>
            have hnext := hrest i (Nat.lt_of_succ_lt_succ hi)
            rw [Nat.add_right_comm] at hnext
            exact hnext
      · intro h
        refine ⟨h 0 (Nat.zero_lt_succ _), fun i hi => ?_⟩
        have hnext := h (i + 1) (Nat.succ_lt_succ hi)
        rw [Nat.add_right_comm]
        exact hnext

theorem matchesAt_iff_slice_eq :
    matchesAt data place bytes = true ↔ slice data place bytes.length = bytes.toByteArray := by
  rw [matchesAt_iff]
  constructor
  · intro h
    have hsize : (slice data place bytes.length).size = bytes.toByteArray.size := by
      rw [slice, ByteArray.size_extract, List.size_toByteArray]
      cases hlength : bytes.length with
      | zero => omega
      | succ n =>
          have hlast := (h n (by omega)).1
          omega
    refine ByteArray.ext_getElem hsize fun i hi hi' => ?_
    rw [List.size_toByteArray] at hi'
    obtain ⟨hlt, hbyte⟩ := h i hi'
    rw [byteAt_of_lt hlt] at hbyte
    simpa [slice, ByteArray.getElem_extract] using hbyte
  · intro h i hi
    have hsize := congrArg ByteArray.size h
    rw [slice, ByteArray.size_extract, List.size_toByteArray] at hsize
    have hlt : place + i < data.size := by omega
    have hslice : i < (slice data place bytes.length).size := by
      rw [h, List.size_toByteArray]
      exact hi
    have hbyte : (slice data place bytes.length)[i] = data[place + i] := by
      simp [slice]
    refine ⟨hlt, ?_⟩
    rw [byteAt_of_lt hlt, ← hbyte]
    simp only [h, List.getElem_toByteArray]

theorem slice_eq_of_byteAt {other : ByteArray} {start size : Nat}
    (hplace : place + size ≤ data.size)
    (hstart : start + size ≤ other.size)
    (h : ∀ i < size, byteAt data (place + i) = byteAt other (start + i)) :
    slice data place size = slice other start size := by
  have hsizes : (slice data place size).size = (slice other start size).size := by
    rw [slice, slice, ByteArray.size_extract, ByteArray.size_extract]
    omega
  refine ByteArray.ext_getElem hsizes fun i hi _ => ?_
  rw [slice, ByteArray.size_extract] at hi
  have hbyte := h i (by omega)
  rw [byteAt_of_lt (by omega), byteAt_of_lt (by omega)] at hbyte
  simpa [slice, ByteArray.getElem_extract] using hbyte

theorem matchesAt_toByteArray (bytes : List UInt8) :
    matchesAt bytes.toByteArray 0 bytes = true := by
  rw [matchesAt_iff]
  intro i hi
  have hlt : 0 + i < bytes.toByteArray.size := by
    rw [List.size_toByteArray, Nat.zero_add]
    exact hi
  refine ⟨hlt, ?_⟩
  rw [byteAt_of_lt hlt, List.getElem_toByteArray]
  simp only [Nat.zero_add]

theorem length_flatMap_of_length {α : Type} {write : α → List UInt8} {width : Nat} {items : List α}
    (hwidth : ∀ item ∈ items, (write item).length = width) :
    (items.flatMap write).length = items.length * width := by
  induction items with
  | nil => simp
  | cons first items ih =>
      rw [List.forall_mem_cons] at hwidth
      rw [List.flatMap_cons, List.length_append, hwidth.1, ih hwidth.2, List.length_cons,
        Nat.succ_mul, Nat.add_comm]

theorem matchesAt_row {α : Type} {write : α → List UInt8} {width : Nat} {items : List α}
    (hwidth : ∀ item ∈ items, (write item).length = width)
    (h : matchesAt data place (items.flatMap write) = true) {row : Nat} {item : α}
    (hitem : items[row]? = some item) :
    matchesAt data (place + row * width) (write item) = true := by
  induction items generalizing place row with
  | nil => simp at hitem
  | cons first items ih =>
      rw [List.flatMap_cons, matchesAt_append, Bool.and_eq_true] at h
      rw [List.forall_mem_cons] at hwidth
      cases row with
      | zero =>
          obtain rfl := Option.some.inj hitem
          simpa using h.1
      | succ row =>
          have hrest := ih hwidth.2 h.2 hitem
          rw [hwidth.1] at hrest
          rwa [Nat.succ_mul, Nat.add_comm (row * width), ← Nat.add_assoc]

end Matches

section Numbers

theorem littleEndian_lt (data : ByteArray) (place width : Nat) :
    littleEndian data place width < 256 ^ width := by
  induction width generalizing place with
  | zero => simp [littleEndian]
  | succ width ih =>
      have hbyte := (byteAt data place).toNat_lt
      have hrest := ih (place + 1)
      simp only [littleEndian, Nat.pow_succ]
      omega

theorem littleEndian_of_matchesAt {value width : Nat} (hvalue : value < 256 ^ width)
    (h : matchesAt data place (ofNat value width) = true) :
    littleEndian data place width = value := by
  induction width generalizing place value with
  | zero => simp_all [littleEndian]
  | succ width ih =>
      simp only [ofNat, matchesAt, Bool.and_eq_true, beq_iff_eq] at h
      obtain ⟨⟨-, hbyte⟩, hrest⟩ := h
      have hhigh : value / 256 < 256 ^ width := by
        apply Nat.div_lt_of_lt_mul
        rwa [← Nat.pow_succ']
      have hlow : (UInt8.ofNat (value % 256)).toNat = value % 256 := by
        rw [UInt8.toNat_ofNat']
        omega
      rw [littleEndian, hbyte, ih hhigh hrest, hlow]
      exact Nat.mod_add_div value 256

theorem matchesAt_littleEndian {width : Nat} (h : place + width ≤ data.size) :
    matchesAt data place (ofNat (littleEndian data place width) width) = true := by
  induction width generalizing place with
  | zero => rfl
  | succ width ih =>
      have hbyte := (byteAt data place).toNat_lt
      have hlow : ((byteAt data place).toNat + 256 * littleEndian data (place + 1) width) % 256 =
          (byteAt data place).toNat := by omega
      have hhigh : ((byteAt data place).toNat + 256 * littleEndian data (place + 1) width) / 256 =
          littleEndian data (place + 1) width := by omega
      rw [littleEndian, ofNat, hlow, hhigh, UInt8.ofNat_toNat]
      simp only [matchesAt, beq_self_eq_true, Bool.and_true, Bool.and_eq_true, decide_eq_true_eq]
      exact ⟨by omega, ih (by omega)⟩

theorem bigEndianFrom_eq (high : Nat) (data : ByteArray) (place width : Nat) :
    bigEndianFrom high data place width = high * 256 ^ width + bigEndian data place width := by
  induction width generalizing high place with
  | zero => simp [bigEndianFrom, bigEndian]
  | succ width ih =>
      have hrest := ih (256 * 0 + (byteAt data place).toNat) (place + 1)
      rw [bigEndian, bigEndianFrom, bigEndianFrom, hrest, ih, Nat.pow_succ]
      ring

theorem bigEndian_succ (data : ByteArray) (place width : Nat) :
    bigEndian data place (width + 1) =
      (byteAt data place).toNat * 256 ^ width + bigEndian data (place + 1) width := by
  rw [bigEndian, bigEndianFrom, bigEndianFrom_eq, Nat.mul_zero, Nat.zero_add]

theorem bigEndian_concat (data : ByteArray) (place width : Nat) :
    bigEndian data place (width + 1) =
      256 * bigEndian data place width + (byteAt data (place + width)).toNat := by
  induction width generalizing place with
  | zero => simp [bigEndian, bigEndianFrom]
  | succ width ih =>
      rw [bigEndian_succ, ih, bigEndian_succ data place width, Nat.add_right_comm place 1,
        Nat.pow_succ, Nat.add_assoc]
      ring

theorem bigEndian_lt (data : ByteArray) (place width : Nat) :
    bigEndian data place width < 256 ^ width := by
  induction width with
  | zero => simp [bigEndian, bigEndianFrom]
  | succ width ih =>
      have hbyte := (byteAt data (place + width)).toNat_lt
      rw [bigEndian_concat, Nat.pow_succ]
      omega

theorem bigEndian_of_matchesAt {value width : Nat} (hvalue : value < 256 ^ width)
    (h : matchesAt data place (ofNat value width).reverse = true) :
    bigEndian data place width = value := by
  induction width generalizing value with
  | zero => simp_all [bigEndian, bigEndianFrom]
  | succ width ih =>
      rw [ofNat, List.reverse_cons, matchesAt_append, List.length_reverse, length_ofNat,
        Bool.and_eq_true] at h
      simp only [matchesAt, Bool.and_true, Bool.and_eq_true, beq_iff_eq] at h
      obtain ⟨hrest, -, hbyte⟩ := h
      have hhigh : value / 256 < 256 ^ width := by
        apply Nat.div_lt_of_lt_mul
        rwa [← Nat.pow_succ']
      rw [bigEndian_concat, ih hhigh hrest, hbyte, UInt8.toNat_ofNat']
      omega

theorem matchesAt_bigEndian {width : Nat} (h : place + width ≤ data.size) :
    matchesAt data place (ofNat (bigEndian data place width) width).reverse = true := by
  induction width with
  | zero => rfl
  | succ width ih =>
      have hbyte := (byteAt data (place + width)).toNat_lt
      have hlow : (256 * bigEndian data place width + (byteAt data (place + width)).toNat) % 256 =
          (byteAt data (place + width)).toNat := by omega
      have hhigh : (256 * bigEndian data place width + (byteAt data (place + width)).toNat) / 256 =
          bigEndian data place width := by omega
      rw [bigEndian_concat, ofNat, hlow, hhigh, UInt8.ofNat_toNat, List.reverse_cons,
        matchesAt_append, List.length_reverse, length_ofNat, ih (by omega)]
      simp [matchesAt]
      omega

theorem toSigned_of_lt {value : Nat} (h : value < 2 ^ 31) : toSigned value 4 = value := by
  rw [toSigned, if_pos (by norm_num; omega)]

theorem toSigned_of_le {value : Nat} (h : 2 ^ 31 ≤ value) :
    toSigned value 4 = (value : Int) - 2 ^ 32 := by
  rw [toSigned, if_neg (by norm_num; omega)]
  norm_num

end Numbers

section Slices

variable {start size : Nat}

theorem byteAt_slice {i : Nat} (hi : i < (slice data start size).size) :
    byteAt (slice data start size) i = byteAt data (start + i) := by
  have hsize := hi
  rw [slice, ByteArray.size_extract] at hsize
  rw [byteAt_of_lt hi, byteAt_of_lt (by omega)]
  simp [slice]

theorem littleEndian_slice {width : Nat} (h : place + width ≤ (slice data start size).size) :
    littleEndian (slice data start size) place width = littleEndian data (start + place) width := by
  induction width generalizing place with
  | zero => rfl
  | succ width ih =>
      rw [littleEndian, littleEndian, byteAt_slice (by omega), ih (by omega), Nat.add_assoc]

theorem toList_slice (data : ByteArray) (start size : Nat) :
    (slice data start size).toList = (data.toList.drop start).take size := by
  rw [toList_eq, toList_eq, slice, ByteArray.data_extract, Array.toList_extract,
    List.extract_eq_take_drop, Nat.add_sub_cancel_left]

theorem matchesAt_iff_prefix : matchesAt data place bytes = true ↔
    bytes <+: data.toList.drop place := by
  rw [matchesAt_iff_slice_eq, List.prefix_iff_eq_take, ← toList_slice]
  constructor
  · intro h
    rw [h, toList_toByteArray]
  · intro h
    rw [h, toByteArray_toList, ← h]

end Slices

section Extensions

variable {more : ByteArray}

theorem toList_append (data more : ByteArray) :
    (data ++ more).toList = data.toList ++ more.toList := by
  simp [toList_eq]

theorem byteAt_append_left (h : place < data.size) :
    byteAt (data ++ more) place = byteAt data place := by
  have hsize : place < (data ++ more).size := by
    rw [ByteArray.size_append]
    omega
  rw [byteAt_of_lt h, byteAt_of_lt hsize, ByteArray.getElem_append_left h]

theorem matchesAt_cons_iff {byte : UInt8} : matchesAt data place (byte :: bytes) = true ↔
    place < data.size ∧ byteAt data place = byte ∧ matchesAt data (place + 1) bytes = true := by
  simp [matchesAt, and_assoc]

theorem add_length_le_of_matchesAt (hne : bytes ≠ []) (h : matchesAt data place bytes = true) :
    place + bytes.length ≤ data.size := by
  have hpos := List.length_pos_iff.mpr hne
  have hlast := (matchesAt_iff.mp h (bytes.length - 1) (by omega)).1
  omega

theorem matchesAt_append_buffer (h : matchesAt data place bytes = true) :
    matchesAt (data ++ more) place bytes = true := by
  have hprefix := matchesAt_iff_prefix.mp h
  apply matchesAt_iff_prefix.mpr
  rw [toList_append, List.drop_append]
  exact hprefix.trans (List.prefix_append _ _)

/-- What stands in a buffer with more bytes behind it stands in the buffer, or the buffer ends
inside of it. -/
theorem matchesAt_or_prefix_of_append (h : matchesAt (data ++ more) place bytes = true) :
    matchesAt data place bytes = true ∨
      data.toList.drop place <+: bytes ∧ data.size < place + bytes.length := by
  have hprefix := matchesAt_iff_prefix.mp h
  rw [toList_append, List.drop_append] at hprefix
  have hown : data.toList.drop place <+: data.toList.drop place ++
      more.toList.drop (place - data.toList.length) := List.prefix_append _ _
  have hlength : (data.toList.drop place).length = data.size - place := by
    rw [List.length_drop, length_toList]
  rcases Nat.lt_or_ge (data.size - place) bytes.length with hlt | hge
  · refine Or.inr ⟨?_, by omega⟩
    apply List.prefix_of_prefix_length_le hown hprefix
    omega
  · left
    apply matchesAt_iff_prefix.mpr
    apply List.prefix_of_prefix_length_le hprefix hown
    omega

end Extensions

theorem terminator?_eq_some_iff {count stop : Nat} :
    terminator? data place count = some stop ↔
      place ≤ stop ∧ stop < place + count ∧ stop < data.size ∧ byteAt data stop = 0 ∧
        ∀ p, place ≤ p → p < stop → byteAt data p ≠ 0 := by
  induction count generalizing place with
  | zero =>
      simp only [terminator?, reduceCtorEq, false_iff]
      omega
  | succ count ih =>
      rw [terminator?]
      by_cases hsize : place < data.size
      · by_cases hzero : byteAt data place = 0
        · rw [if_pos hsize, if_pos hzero, Option.some.injEq]
          constructor
          · rintro rfl
            exact ⟨le_refl _, by omega, hsize, hzero, fun p hle hlt => by omega⟩
          · rintro ⟨hle, -, -, -, hfirst⟩
            by_contra hne
            exact hfirst place (le_refl _) (by omega) hzero
        · rw [if_pos hsize, if_neg hzero, ih]
          constructor
          · rintro ⟨hle, hlt, hin, hbyte, hfirst⟩
            refine ⟨by omega, by omega, hin, hbyte, fun p hp hstop => ?_⟩
            by_cases heq : p = place
            · rwa [heq]
            · exact hfirst p (by omega) hstop
          · rintro ⟨hle, hlt, hin, hbyte, hfirst⟩
            have hne : place ≠ stop := by
              rintro rfl
              exact hzero hbyte
            exact ⟨by omega, by omega, hin, hbyte, fun p hp hstop => hfirst p (by omega) hstop⟩
      · rw [if_neg hsize]
        simp only [reduceCtorEq, false_iff]
        omega

theorem terminator?_isSome_iff {count : Nat} :
    (terminator? data place count).isSome = true ↔
      ∃ p, place ≤ p ∧ p < place + count ∧ p < data.size ∧ byteAt data p = 0 := by
  rw [Option.isSome_iff_exists]
  constructor
  · rintro ⟨stop, hstop⟩
    exact ⟨stop, terminator?_spec hstop⟩
  · intro h
    classical
    obtain ⟨hle, hlt, hin, hbyte⟩ := Nat.find_spec h
    refine ⟨Nat.find h, terminator?_eq_some_iff.mpr ⟨hle, hlt, hin, hbyte, ?_⟩⟩
    intro p hp hfirst hzero
    exact Nat.find_min h hfirst ⟨hp, by omega, by omega, hzero⟩

theorem zero_not_mem_iff (h : matchesAt data place bytes = true) :
    0 ∉ bytes ↔ ∀ p, place ≤ p → p < place + bytes.length → byteAt data p ≠ 0 := by
  rw [matchesAt_iff] at h
  constructor
  · intro hzero p hle hlt hbyte
    obtain ⟨i, rfl⟩ := Nat.exists_eq_add_of_le hle
    obtain ⟨-, hi⟩ := h i (by omega)
    exact hzero (hbyte ▸ hi ▸ List.getElem_mem _)
  · intro hbytes hzero
    obtain ⟨i, hi, hbyte⟩ := List.getElem_of_mem hzero
    exact hbytes (place + i) (by omega) (by omega) ((h i hi).2.trans hbyte)

theorem cString?_eq_some_iff {limit : Nat} {text : ByteArray} :
    cString? data place limit = some text ↔
      text.size < limit ∧ 0 ∉ text.toList ∧ matchesAt data place (text.toList ++ [0]) = true := by
  have hlength := length_toList text
  simp only [cString?, Option.map_eq_some_iff, terminator?_eq_some_iff, matchesAt_append,
    Bool.and_eq_true, matchesAt, decide_eq_true_eq, beq_iff_eq, and_true, hlength]
  constructor
  · rintro ⟨stop, ⟨hle, hlt, hsize, hbyte, hfirst⟩, rfl⟩
    have hstop : place + (data.extract place stop).size = stop := by
      rw [ByteArray.size_extract]
      omega
    have hmatch : matchesAt data place (data.extract place stop).toList = true := by
      rw [matchesAt_iff_slice_eq, hlength, toByteArray_toList, slice, hstop]
    rw [zero_not_mem_iff hmatch, hlength, hstop]
    exact ⟨by omega, hfirst, hmatch, hsize, hbyte⟩
  · rintro ⟨hlt, hzero, hmatch, hsize, hbyte⟩
    have hfirst := (zero_not_mem_iff hmatch).mp hzero
    rw [matchesAt_iff_slice_eq, hlength, toByteArray_toList] at hmatch
    rw [hlength] at hfirst
    exact ⟨place + text.size, ⟨by omega, by omega, hsize, hbyte, hfirst⟩, hmatch⟩

theorem concat_zero_prefix_iff {items : List UInt8} :
    0 ∉ bytes ∧ bytes ++ [0] <+: items ↔ 0 ∈ items ∧ items.takeWhile (· != 0) = bytes := by
  induction items generalizing bytes with
  | nil => simp
  | cons item items ih =>
      by_cases hzero : item = 0
      · subst item
        cases bytes with
        | nil => simp
        | cons byte bytes => simp +contextual [List.cons_prefix_cons, eq_comm]
      · have hkept : (item :: items).takeWhile (· != 0) = item :: items.takeWhile (· != 0) :=
          List.takeWhile_cons_of_pos (by simpa using hzero)
        rw [hkept]
        cases bytes with
        | nil => simp [List.cons_prefix_cons, Ne.symm hzero]
        | cons byte bytes =>
            have hne : 0 ≠ item := Ne.symm hzero
            simp only [List.mem_cons, not_or, List.cons_append, List.cons_prefix_cons,
              List.cons.injEq, hne, false_or]
            constructor
            · rintro ⟨⟨-, hbytes⟩, rfl, hprefix⟩
              obtain ⟨hmem, hsame⟩ := ih.mp ⟨hbytes, hprefix⟩
              exact ⟨hmem, rfl, hsame⟩
            · rintro ⟨hmem, rfl, hsame⟩
              obtain ⟨hbytes, hprefix⟩ := ih.mpr ⟨hmem, hsame⟩
              exact ⟨⟨hne, hbytes⟩, rfl, hprefix⟩

theorem cString?_eq (data : ByteArray) (place limit : Nat) :
    cString? data place limit =
      if 0 ∈ (slice data place limit).toList then
        some ((slice data place limit).toList.takeWhile (· != 0)).toByteArray
      else none := by
  refine Option.ext fun text => ?_
  have hprefix : text.size < limit ∧ text.toList ++ [0] <+: data.toList.drop place ↔
      text.toList ++ [0] <+: (slice data place limit).toList := by
    rw [toList_slice, List.prefix_take_iff, length_toList_concat, Nat.lt_iff_add_one_le, and_comm]
  rw [cString?_eq_some_iff, matchesAt_iff_prefix, and_left_comm, hprefix, concat_zero_prefix_iff]
  split
  · next hzero =>
      rw [Option.some.injEq]
      constructor
      · rintro ⟨-, hsame⟩
        rw [hsame, toByteArray_toList]
      · rintro rfl
        exact ⟨hzero, (toList_toByteArray _).symm⟩
  · next hzero => simp [hzero]

end TypeAtlas.Bytes
