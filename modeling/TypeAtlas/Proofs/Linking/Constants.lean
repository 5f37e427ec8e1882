import TypeAtlas.Proofs.Bytes.Places
import TypeAtlas.Proofs.Linking.Defaults
import TypeAtlas.Proofs.Linking.Faults
import TypeAtlas.Proofs.Text.Utf8

namespace TypeAtlas.Constant

variable {release : Release} {data : ByteArray} {index start number : Nat} {place : Int}
  {header : List UInt8} {result : Except Fault Constant}

/-- Some bytes write a number in a compressed form. A number of two or four bytes has the most
significant byte first, and the highest bits of that byte tell the form. -/
inductive Compresses : List UInt8 → Nat → Prop
  | oneByte {number : Nat} (h : number < 0x80) : Compresses [UInt8.ofNat number] number
  | twoBytes {number : Nat} (h : number < 2 ^ 14) :
      Compresses (Bytes.ofNat (0x8000 + number) 2).reverse number
  | fourBytes {number : Nat} (h : number < 2 ^ 29) :
      Compresses (Bytes.ofNat (0xC0000000 + number) 4).reverse number
  | whole {number : Nat} (h : number < 2 ^ 32) : Compresses (0xF0 :: Bytes.ofNat number 4) number
  | secondGreatest : Compresses [0xFE] (2 ^ 32 - 2)
  | greatest : Compresses [0xFF] (2 ^ 32 - 1)

/-- Some bytes write the length of a text, as an unsigned number of 32 bits. -/
inductive WritesLength (release : Release) : List UInt8 → Nat → Prop
  | plain {number : Nat} (hrelease : release.isAtLeast .v29_0 = false) (h : number < 2 ^ 32) :
      WritesLength release (Bytes.ofNat number 4) number
  | compressed {header : List UInt8} {number : Nat} (hrelease : release.isAtLeast .v29_0 = true)
      (h : Compresses header number) : WritesLength release header number

/-- The first bytes that no compressed number has. -/
def IsUnknownForm (lead : UInt8) : Prop :=
  0xE0 ≤ lead.toNat ∧ lead.toNat < 0xF0 ∨ 0xF0 < lead.toNat ∧ lead.toNat < 0xFE

def exceeds (index : Nat) (offset : Int) : Fault :=
  malformed "Default value exceeds the default value data table" index offset

/-- What is read where a length and a text should stand. -/
inductive ReadsText (release : Release) (data : ByteArray) (index : Nat) :
    (place : Int) → Except Fault Constant → Prop
  | text {start : Nat} {header body : List UInt8}
      (hheader : WritesLength release header body.length) (hlength : body.length < 2 ^ 31)
      (hbytes : Bytes.matchesAt data start (header ++ body) = true) :
      ReadsText release data index start (.ok (.text (Text.decode body)))
  | null {start : Nat} {header : List UInt8} (hheader : WritesLength release header (2 ^ 32 - 1))
      (hbytes : Bytes.matchesAt data start header = true) :
      ReadsText release data index start (.ok .null)
  | negative {start number : Nat} {header : List UInt8}
      (hheader : WritesLength release header number)
      (hnegative : 2 ^ 31 ≤ number ∧ number < 2 ^ 32 - 1)
      (hbytes : Bytes.matchesAt data start header = true) :
      ReadsText release data index start (.error (malformed
        ("Negative string constant length " ++ toString ((number : Int) - 2 ^ 32)) index start))
  | unknownForm {start : Nat} {lead : UInt8} (hrelease : release.isAtLeast .v29_0 = true)
      (hlead : IsUnknownForm lead) (hbytes : Bytes.matchesAt data start [lead] = true) :
      ReadsText release data index start (.error (malformed
        ("Invalid compressed integer prefix " ++ Hexadecimal.ofNat lead.toNat) index start))
  | cutLength {start number : Nat} {header : List UInt8}
      (hheader : WritesLength release header number)
      (hbytes : data.toList.drop start <+: header) (hend : data.size < start + header.length) :
      ReadsText release data index start (.error (exceeds index start))
  | cutText {start number : Nat} {header : List UInt8}
      (hheader : WritesLength release header number) (hlength : number < 2 ^ 31)
      (hbytes : Bytes.matchesAt data start header = true)
      (hend : data.size < start + header.length + number) :
      ReadsText release data index start (.error (exceeds index (start + header.length : Nat)))
  | before {place : Int} (hplace : place < 0) :
      ReadsText release data index place (.error (exceeds index place))

section Lengths

theorem Compresses.lt (h : Compresses header number) : number < 2 ^ 32 := by
  cases h <;> omega

theorem WritesLength.lt (h : WritesLength release header number) : number < 2 ^ 32 := by
  cases h with
  | plain _ h => exact h
  | compressed _ h => exact h.lt

theorem Compresses.ne_nil (h : Compresses header number) : header ≠ [] := by
  rintro rfl
  cases h

theorem WritesLength.ne_nil (h : WritesLength release header number) : header ≠ [] := by
  cases h with
  | plain => simp [Bytes.ofNat]
  | compressed _ h => exact h.ne_nil

theorem exists_writesLength (release : Release) (h : number < 2 ^ 32) :
    ∃ header, WritesLength release header number := by
  cases hrelease : release.isAtLeast .v29_0 with
  | false => exact ⟨_, .plain hrelease h⟩
  | true => exact ⟨_, .compressed hrelease (.whole h)⟩

section Marked

variable {marks high width : Nat}

theorem number_of_marked (hnumber : number < high * 256 ^ width)
    (hbytes : Bytes.matchesAt data start
      (Bytes.ofNat (marks * high * 256 ^ width + number) (width + 1)).reverse = true)
    (hmarks : marks * high + high ≤ 256) :
    (Bytes.byteAt data start).toNat % high * 256 ^ width +
        Bytes.bigEndian data (start + 1) width = number ∧
      marks * high ≤ (Bytes.byteAt data start).toNat ∧
        (Bytes.byteAt data start).toNat < marks * high + high := by
  have hunit : 0 < 256 ^ width := Nat.pow_pos (by decide)
  have hlow := Bytes.bigEndian_lt data (start + 1) width
  have hupper : number / 256 ^ width < high := Nat.div_lt_of_lt_mul (by rwa [Nat.mul_comm])
  have hfits : marks * high * 256 ^ width + number < 256 ^ (width + 1) := by
    rw [Nat.pow_succ', ← Nat.div_lt_iff_lt_mul hunit, Nat.mul_comm (marks * high),
      Nat.mul_add_div hunit]
    omega
  have hmarked := Bytes.bigEndian_of_matchesAt hfits hbytes
  rw [Bytes.bigEndian_succ] at hmarked
  have hfirst : (Bytes.byteAt data start).toNat = marks * high + number / 256 ^ width := by
    have hdiv := congrArg (· / 256 ^ width) hmarked
    simpa only [Nat.mul_comm _ (256 ^ width), Nat.mul_add_div hunit, Nat.div_eq_of_lt hlow,
      Nat.add_zero] using hdiv
  have hrest : Bytes.bigEndian data (start + 1) width = number % 256 ^ width := by
    have hmod := congrArg (· % 256 ^ width) hmarked
    simpa only [Nat.mul_add_mod', Nat.mod_eq_of_lt hlow] using hmod
  refine ⟨?_, hfirst ▸ Nat.le_add_right _ _, hfirst ▸ Nat.add_lt_add_left hupper _⟩
  calc (Bytes.byteAt data start).toNat % high * 256 ^ width +
        Bytes.bigEndian data (start + 1) width
      = number / 256 ^ width * 256 ^ width + number % 256 ^ width := by
        rw [hfirst, hrest, Nat.mul_add_mod', Nat.mod_eq_of_lt hupper]
    _ = number := Nat.div_add_mod' number (256 ^ width)

theorem matchesAt_marked (hinside : start + (width + 1) ≤ data.size)
    (hform : marks * high ≤ (Bytes.byteAt data start).toNat ∧
      (Bytes.byteAt data start).toNat < marks * high + high) :
    (Bytes.byteAt data start).toNat % high * 256 ^ width +
        Bytes.bigEndian data (start + 1) width < high * 256 ^ width ∧
      Bytes.matchesAt data start (Bytes.ofNat (marks * high * 256 ^ width +
        ((Bytes.byteAt data start).toNat % high * 256 ^ width +
          Bytes.bigEndian data (start + 1) width)) (width + 1)).reverse = true := by
  obtain ⟨upper, hupper⟩ := Nat.exists_eq_add_of_le hform.1
  have hlt : upper < high := by omega
  have hlow := Bytes.bigEndian_lt data (start + 1) width
  have hmod : (Bytes.byteAt data start).toNat % high = upper := by
    rw [hupper, Nat.mul_add_mod', Nat.mod_eq_of_lt hlt]
  have hmarked := Bytes.matchesAt_bigEndian hinside
  rw [Bytes.bigEndian_succ, hupper, Nat.add_mul, Nat.add_assoc] at hmarked
  rw [hmod]
  exact ⟨Nat.lt_of_lt_of_le (by rw [Nat.succ_mul]; omega) (Nat.mul_le_mul_right _ hlt), hmarked⟩

end Marked

theorem compressed_of_compresses (h : Compresses header number)
    (hbytes : Bytes.matchesAt data start header = true) :
    Compressed data start number (start + header.length) := by
  have hinside := Bytes.add_length_le_of_matchesAt h.ne_nil hbytes
  cases h with
  | oneByte h =>
      obtain ⟨-, hbyte, -⟩ := Bytes.matchesAt_cons_iff.mp hbytes
      refine .oneByte ?_ hinside h
      rw [hbyte, Text.toNat_ofNat (by omega)]
  | twoBytes h =>
      obtain ⟨hvalue, hform⟩ := @number_of_marked data start number 2 0x40 1 h hbytes (by decide)
      rw [List.length_reverse, Bytes.length_ofNat] at *
      rw [← hvalue]
      exact .twoBytes rfl hinside hform
  | fourBytes h =>
      obtain ⟨hvalue, hform⟩ := @number_of_marked data start number 6 0x20 3 h hbytes (by decide)
      rw [List.length_reverse, Bytes.length_ofNat] at *
      rw [← hvalue]
      exact .fourBytes rfl hinside hform
  | whole h =>
      obtain ⟨-, hbyte, hrest⟩ := Bytes.matchesAt_cons_iff.mp hbytes
      rw [List.length_cons, Bytes.length_ofNat] at *
      have hcompressed := @Compressed.whole data start hinside (by rw [hbyte]; rfl)
      rwa [Bytes.littleEndian_of_matchesAt (by omega) hrest] at hcompressed
  | secondGreatest =>
      obtain ⟨-, hbyte, -⟩ := Bytes.matchesAt_cons_iff.mp hbytes
      exact .secondGreatest hinside (by rw [hbyte]; rfl)
  | greatest =>
      obtain ⟨-, hbyte, -⟩ := Bytes.matchesAt_cons_iff.mp hbytes
      exact .greatest hinside (by rw [hbyte]; rfl)

theorem exists_compresses (hinside : start + 5 ≤ data.size)
    (hform : ¬IsUnknownForm (Bytes.byteAt data start)) :
    ∃ header number, Compresses header number ∧ Bytes.matchesAt data start header = true := by
  have hbyte := (Bytes.byteAt data start).toNat_lt
  have hforms : (Bytes.byteAt data start).toNat < 0x80 ∨
      (0x80 ≤ (Bytes.byteAt data start).toNat ∧ (Bytes.byteAt data start).toNat < 0xC0) ∨
      (0xC0 ≤ (Bytes.byteAt data start).toNat ∧ (Bytes.byteAt data start).toNat < 0xE0) ∨
      (Bytes.byteAt data start).toNat = 0xF0 ∨ (Bytes.byteAt data start).toNat = 0xFE ∨
      (Bytes.byteAt data start).toNat = 0xFF := by
    unfold IsUnknownForm at hform
    omega
  rcases hforms with hone | htwo | hfour | hwhole | hsecond | hgreatest
  · refine ⟨_, _, .oneByte hone, ?_⟩
    rw [UInt8.ofNat_toNat]
    exact Bytes.matchesAt_cons_iff.mpr ⟨by omega, rfl, rfl⟩
  · obtain ⟨hlt, hbytes⟩ := @matchesAt_marked data start 2 0x40 1 (by omega) htwo
    exact ⟨_, _, .twoBytes hlt, hbytes⟩
  · obtain ⟨hlt, hbytes⟩ := @matchesAt_marked data start 6 0x20 3 (by omega) hfour
    exact ⟨_, _, .fourBytes hlt, hbytes⟩
  · exact ⟨_, _, .whole (Bytes.littleEndian_lt data (start + 1) 4),
      Bytes.matchesAt_cons_iff.mpr
        ⟨by omega, UInt8.toNat_inj.mp hwhole, Bytes.matchesAt_littleEndian (by omega)⟩⟩
  · exact ⟨_, _, .secondGreatest,
      Bytes.matchesAt_cons_iff.mpr ⟨by omega, UInt8.toNat_inj.mp hsecond, rfl⟩⟩
  · exact ⟨_, _, .greatest,
      Bytes.matchesAt_cons_iff.mpr ⟨by omega, UInt8.toNat_inj.mp hgreatest, rfl⟩⟩

theorem hasLength_of_writesLength (h : WritesLength release header number)
    (hbytes : Bytes.matchesAt data start header = true) :
    HasLength release data start (Bytes.toSigned number 4) (start + header.length) := by
  cases h with
  | plain hrelease h =>
      have hinside := Bytes.add_length_le_of_matchesAt (by simp [Bytes.ofNat]) hbytes
      rw [Bytes.length_ofNat] at *
      have hplain := HasLength.plain hrelease hinside
      rwa [Bytes.littleEndian_of_matchesAt (by omega) hbytes] at hplain
  | compressed hrelease h => exact .compressed hrelease (compressed_of_compresses h hbytes)

theorem requireBytes_of_le {size : Nat} (h : start + size ≤ data.size) :
    requireBytes data index start size = .ok start := by
  rw [requireBytes, if_neg (by omega), Int.toNat_natCast]

theorem requireBytes_of_lt {size : Nat} (h : data.size < start + size) :
    requireBytes data index start size = .error (exceeds index start) := by
  rw [requireBytes, if_pos (by omega), exceeds]

theorem requireBytes_of_neg {size : Nat} (h : place < 0) :
    requireBytes data index place size = .error (exceeds index place) := by
  rw [requireBytes, if_pos (Or.inl h), exceeds]

theorem byteAt_of_cut {lead : UInt8} {rest : List UInt8} (hinside : start < data.size)
    (h : data.toList.drop start <+: lead :: rest) : Bytes.byteAt data start = lead := by
  have hown : Bytes.matchesAt data start [Bytes.byteAt data start] = true :=
    Bytes.matchesAt_cons_iff.mpr ⟨hinside, rfl, rfl⟩
  have hlead := Bytes.matchesAt_iff_prefix.mp hown
  exact (List.cons_prefix_cons.mp (hlead.trans h)).1

theorem readCompressed_of_cut (h : Compresses header number)
    (hbytes : data.toList.drop start <+: header) (hend : data.size < start + header.length) :
    readCompressed data index start = .error (exceeds index start) := by
  unfold readCompressed
  rcases Nat.lt_or_ge start data.size with hinside | houtside
  · rw [requireBytes_of_le hinside, ok_bind]
    dsimp only
    cases h with
    | oneByte h =>
        rw [List.length_singleton] at hend
        omega
    | twoBytes h =>
        rw [List.length_reverse, Bytes.length_ofNat] at hend
        rw [byteAt_of_cut hinside hbytes, Text.toNat_ofNat (by omega), if_neg (by omega),
          if_pos (by omega), requireBytes_of_lt hend, error_bind]
    | fourBytes h =>
        rw [List.length_reverse, Bytes.length_ofNat] at hend
        rw [byteAt_of_cut hinside hbytes, Text.toNat_ofNat (by omega), if_neg (by omega),
          if_neg (by omega), if_pos (by omega), requireBytes_of_lt hend, error_bind]
    | whole h =>
        rw [List.length_cons, Bytes.length_ofNat] at hend
        rw [byteAt_of_cut hinside hbytes, if_neg (by decide), if_neg (by decide),
          if_neg (by decide), if_pos (by decide), requireBytes_of_lt hend, error_bind]
    | secondGreatest =>
        rw [List.length_singleton] at hend
        omega
    | greatest =>
        rw [List.length_singleton] at hend
        omega
  · rw [requireBytes_of_lt (by omega), error_bind]

theorem readCompressed_of_unknownForm {lead : UInt8} (hlead : IsUnknownForm lead)
    (hbytes : Bytes.matchesAt data start [lead] = true) :
    readCompressed data index start = .error (malformed
      ("Invalid compressed integer prefix " ++ Hexadecimal.ofNat lead.toNat) index start) := by
  obtain ⟨hinside, hbyte, -⟩ := Bytes.matchesAt_cons_iff.mp hbytes
  unfold IsUnknownForm at hlead
  unfold readCompressed
  rw [requireBytes_of_le hinside, ok_bind]
  dsimp only
  rw [hbyte, if_neg (by omega), if_neg (by omega), if_neg (by omega), if_neg (by omega),
    if_neg (by omega), if_neg (by omega)]
  rfl

theorem readLength_of_writesLength (h : WritesLength release header number)
    (hbytes : Bytes.matchesAt data start header = true) :
    readLength release data index start =
      .ok (Bytes.toSigned number 4, start + header.length) :=
  readLength_eq_ok_iff.mpr (hasLength_of_writesLength h hbytes)

theorem readLength_of_cut (h : WritesLength release header number)
    (hbytes : data.toList.drop start <+: header) (hend : data.size < start + header.length) :
    readLength release data index start = .error (exceeds index start) := by
  unfold readLength
  cases h with
  | plain hrelease h =>
      rw [Bytes.length_ofNat] at hend
      rw [if_neg (by simp [hrelease]), requireBytes_of_lt hend, error_bind]
  | compressed hrelease h =>
      rw [if_pos hrelease, readCompressed_of_cut h hbytes hend, error_bind]

theorem readLength_of_neg (h : place < 0) :
    readLength release data index place = .error (exceeds index place) := by
  unfold readLength readCompressed
  simp only [requireBytes_of_neg h, error_bind, ite_self]

theorem exists_writesLength_or_unknownForm (release : Release) (h : start + 5 ≤ data.size) :
    (∃ header number, WritesLength release header number ∧
        Bytes.matchesAt data start header = true) ∨
      release.isAtLeast .v29_0 = true ∧ IsUnknownForm (Bytes.byteAt data start) := by
  cases hrelease : release.isAtLeast .v29_0 with
  | false =>
      exact Or.inl ⟨_, _, .plain hrelease (Bytes.littleEndian_lt data start 4),
        Bytes.matchesAt_littleEndian (by omega)⟩
  | true =>
      by_cases hform : IsUnknownForm (Bytes.byteAt data start)
      · exact Or.inr ⟨rfl, hform⟩
      · obtain ⟨header, number, hwrites, hbytes⟩ := exists_compresses h hform
        exact Or.inl ⟨header, number, .compressed hrelease hwrites, hbytes⟩

end Lengths

section Texts

theorem read_string (hplace : place ≠ noData) :
    read release data Kind.string place index = readText release data index place := by
  rw [read, if_neg hplace]
  rfl

theorem readText_of_readsText (h : ReadsText release data index place result) :
    readText release data index place = result := by
  unfold readText
  cases h with
  | @text start header body hheader hlength hbytes =>
      have hinside := Bytes.add_length_le_of_matchesAt (by simp [hheader.ne_nil]) hbytes
      rw [Bytes.matchesAt_append, Bool.and_eq_true] at hbytes
      obtain ⟨hfront, hbody⟩ := hbytes
      rw [List.length_append, ← Nat.add_assoc] at hinside
      rw [readLength_of_writesLength hheader hfront, ok_bind, Bytes.toSigned_of_lt hlength]
      dsimp only
      rw [if_neg (by omega), if_neg (by omega), Int.toNat_natCast, requireBytes_of_le hinside,
        ok_bind, Bytes.matchesAt_iff_slice_eq.mp hbody, Bytes.toList_toByteArray]
      rfl
  | null hheader hbytes =>
      rw [readLength_of_writesLength hheader hbytes, ok_bind, Bytes.toSigned_of_le (by norm_num)]
      rfl
  | negative hheader hnegative hbytes =>
      rw [readLength_of_writesLength hheader hbytes, ok_bind, Bytes.toSigned_of_le hnegative.1]
      dsimp only
      rw [if_neg (by omega), if_pos (by omega)]
      rfl
  | unknownForm hrelease hlead hbytes =>
      rw [readLength, if_pos hrelease, readCompressed_of_unknownForm hlead hbytes, error_bind,
        error_bind]
  | cutLength hheader hbytes hend => rw [readLength_of_cut hheader hbytes hend, error_bind]
  | cutText hheader hlength hbytes hend =>
      rw [readLength_of_writesLength hheader hbytes, ok_bind, Bytes.toSigned_of_lt hlength]
      dsimp only
      rw [if_neg (by omega), if_neg (by omega), Int.toNat_natCast, requireBytes_of_lt hend,
        error_bind]
  | before hplace => rw [readLength_of_neg hplace, error_bind]

theorem exists_readsText_of_writesLength (hheader : WritesLength release header number)
    (hbytes : Bytes.matchesAt data start header = true) :
    ∃ result, ReadsText release data index start result := by
  have hlt := hheader.lt
  rcases Nat.lt_or_ge number (2 ^ 31) with hpos | hneg
  · rcases Nat.lt_or_ge data.size (start + header.length + number) with hend | hinside
    · exact ⟨_, .cutText hheader hpos hbytes hend⟩
    · let body := (Bytes.slice data (start + header.length) number).toList
      have hlength : body.length = number := by
        rw [Bytes.length_toList, Bytes.slice, ByteArray.size_extract]
        omega
      have hbody : Bytes.matchesAt data (start + header.length) body = true := by
        rw [Bytes.matchesAt_iff_slice_eq, hlength, Bytes.toByteArray_toList]
      refine ⟨_, .text (hlength.symm ▸ hheader) (hlength.symm ▸ hpos) ?_⟩
      rw [Bytes.matchesAt_append, hbytes, hbody]
      rfl
  · by_cases hnull : number = 2 ^ 32 - 1
    · exact ⟨_, .null (hnull ▸ hheader) hbytes⟩
    · exact ⟨_, .negative hheader ⟨hneg, by omega⟩ hbytes⟩

theorem exists_readsText (release : Release) (data : ByteArray) (index : Nat) (place : Int) :
    ∃ result, ReadsText release data index place result := by
  rcases lt_or_ge place 0 with hneg | hpos
  · exact ⟨_, .before hneg⟩
  · obtain ⟨start, rfl⟩ := Int.eq_ofNat_of_zero_le hpos
    -- With enough zeros behind the data a length stands at the place, which may lie in the zeros.
    let zeros := (List.replicate (start + 5) (0 : UInt8)).toByteArray
    have hroom : start + 5 ≤ (data ++ zeros).size := by
      rw [ByteArray.size_append, List.size_toByteArray, List.length_replicate]
      omega
    rcases exists_writesLength_or_unknownForm release hroom with
      ⟨header, number, hheader, hbytes⟩ | ⟨hrelease, hform⟩
    · rcases Bytes.matchesAt_or_prefix_of_append hbytes with hbytes | ⟨hbytes, hend⟩
      · exact exists_readsText_of_writesLength hheader hbytes
      · exact ⟨_, .cutLength hheader hbytes hend⟩
    · rcases Nat.lt_or_ge start data.size with hinside | houtside
      · rw [Bytes.byteAt_append_left hinside] at hform
        exact ⟨_, .unknownForm hrelease hform
          (Bytes.matchesAt_cons_iff.mpr ⟨hinside, rfl, rfl⟩)⟩
      · obtain ⟨header, hheader⟩ := @exists_writesLength 0 release (by norm_num)
        have hne := List.length_pos_iff.mpr hheader.ne_nil
        refine ⟨_, .cutLength hheader ?_ (by omega)⟩
        rw [List.drop_eq_nil_of_le (by rwa [Bytes.length_toList])]
        exact List.nil_prefix

theorem readText_eq_iff :
    readText release data index place = result ↔ ReadsText release data index place result := by
  refine ⟨?_, readText_of_readsText⟩
  rintro rfl
  obtain ⟨result, h⟩ := exists_readsText release data index place
  rwa [readText_of_readsText h]

/-- More bytes behind the data do not matter, but for the fault that bytes are missing. -/
theorem ReadsText.append (more : ByteArray) (h : ReadsText release data index place result) :
    ReadsText release (data ++ more) index place result ∨
      ∃ offset, result = .error (exceeds index offset) := by
  cases h with
  | text hheader hlength hbytes =>
      exact Or.inl (.text hheader hlength (Bytes.matchesAt_append_buffer hbytes))
  | null hheader hbytes => exact Or.inl (.null hheader (Bytes.matchesAt_append_buffer hbytes))
  | negative hheader hnegative hbytes =>
      exact Or.inl (.negative hheader hnegative (Bytes.matchesAt_append_buffer hbytes))
  | unknownForm hrelease hlead hbytes =>
      exact Or.inl (.unknownForm hrelease hlead (Bytes.matchesAt_append_buffer hbytes))
  | cutLength => exact Or.inr ⟨_, rfl⟩
  | cutText => exact Or.inr ⟨_, rfl⟩
  | before => exact Or.inr ⟨_, rfl⟩

/-- At every place that stands for a value a text is read exactly if its length and its bytes stand
there inside of the data, in any of the forms of a length. The length -1 is read as no text. Other
negative lengths, first bytes that start no length, and lengths and texts that are cut off or start
before the data are malformed. What is read does not depend on bytes past the data, and the bytes of
a text are read as the text. -/
theorem reads_texts (hplace : place ≠ -1) :
    (∀ result, read release data Kind.string place index = result ↔
      ReadsText release data index place result) ∧
    (∀ fault, read release data Kind.string place index = .error fault →
      fault.IsMalformedDefault index) ∧
    (∀ more, read release (data ++ more) Kind.string place index =
        read release data Kind.string place index ∨
      ∃ offset, read release data Kind.string place index = .error (exceeds index offset)) ∧
    ∀ (start : Nat) (header : List UInt8) (text : String), place = start →
      WritesLength release header text.toUTF8.size → text.toUTF8.size < 2 ^ 31 →
        Bytes.matchesAt data start (header ++ text.toUTF8.toList) = true →
          read release data Kind.string place index = .ok (.text text) := by
  have hread : ∀ (data : ByteArray) (result : Except Fault Constant),
      read release data Kind.string place index = result ↔
        ReadsText release data index place result := by
    intro data result
    rw [read_string hplace, readText_eq_iff]
  refine ⟨hread data, fun fault h => isMalformedDefault_of_read h, fun more => ?_, ?_⟩
  · refine ((hread data _).mp rfl).append more |>.imp_left fun h => ?_
    exact (hread _ _).mpr h
  · rintro start header text rfl hheader hlength hbytes
    rw [← Bytes.length_toList] at hheader hlength
    rw [(hread data _).mpr (.text hheader hlength hbytes), Text.decode_toUTF8]

/-- At 0 and 4 stand a text and no text, at 9 a byte that starts no length, and at 10 a length of
four bytes of which two are missing. -/
def mixedTexts : ByteArray :=
  ⟨#[0x80, 0x02, 0x68, 0x69, 0xF0, 0xFF, 0xFF, 0xFF, 0xFF, 0xE0, 0xC0, 0x00]⟩

theorem reads_mixedTexts :
    read .v29_0 mixedTexts Kind.string 0 7 = .ok (.text "hi") ∧
      read .v29_0 mixedTexts Kind.string 4 7 = .ok .null ∧
      read .v29_0 mixedTexts Kind.string 9 7 =
        .error (malformed ("Invalid compressed integer prefix " ++ Hexadecimal.ofNat 0xE0) 7 9) ∧
      read .v29_0 mixedTexts Kind.string 10 7 = .error (exceeds 7 10) ∧
      read .v29_0 mixedTexts Kind.string (-2) 7 = .error (exceeds 7 (-2)) := by
  have hreads := fun place hplace => @reads_texts .v29_0 mixedTexts 7 place hplace
  have htwo : WritesLength .v29_0 [0x80, 0x02] 2 :=
    .compressed rfl (@Compresses.twoBytes 2 (by decide))
  have hwhole : WritesLength .v29_0 (0xF0 :: Bytes.ofNat (2 ^ 32 - 1) 4) (2 ^ 32 - 1) :=
    .compressed rfl (.whole (by decide))
  have hfour : WritesLength .v29_0 [0xC0, 0x00, 0x00, 0x00] 0 :=
    .compressed rfl (@Compresses.fourBytes 0 (by decide))
  have hhi : "hi".toUTF8.toList = [0x68, 0x69] := Text.toList_toUTF8 "hi"
  refine ⟨?_, ?_, ?_, ?_, ?_⟩
  · refine (hreads 0 (by decide)).2.2.2 0 _ "hi" rfl htwo (by decide) ?_
    rw [hhi]
    rfl
  · exact ((hreads 4 (by decide)).1 _).mpr
      (@ReadsText.null _ mixedTexts _ 4 _ hwhole (by decide))
  · exact ((hreads 9 (by decide)).1 _).mpr
      (@ReadsText.unknownForm _ mixedTexts _ 9 0xE0 rfl (Or.inl (by decide)) (by decide))
  · refine ((hreads 10 (by decide)).1 _).mpr
      (@ReadsText.cutLength _ mixedTexts _ 10 _ _ hfour ?_ (by decide))
    rw [Bytes.toList_eq]
    decide
  · exact ((hreads (-2) (by decide)).1 _).mpr (.before (by decide))

end Texts

end TypeAtlas.Constant
