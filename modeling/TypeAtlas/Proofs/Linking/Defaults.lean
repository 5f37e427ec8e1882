import TypeAtlas.Graph.Constant
import TypeAtlas.Proofs.Outcome

namespace TypeAtlas.Constant

variable {release : Release} {data : ByteArray} {kind index : Nat} {place : Int}

/-- A compressed number at a place, with the place after it. The first byte tells the form. -/
inductive Compressed (data : ByteArray) : (place : Int) → (number next : Nat) → Prop
  | oneByte {start first : Nat} (hfirst : first = (Bytes.byteAt data start).toNat)
      (hinside : start + 1 ≤ data.size) (hform : first < 0x80) :
      Compressed data start first (start + 1)
  | twoBytes {start first : Nat} (hfirst : first = (Bytes.byteAt data start).toNat)
      (hinside : start + 2 ≤ data.size) (hform : 0x80 ≤ first ∧ first < 0xC0) :
      Compressed data start (first % 0x40 * 0x100 + Bytes.bigEndian data (start + 1) 1) (start + 2)
  | fourBytes {start first : Nat} (hfirst : first = (Bytes.byteAt data start).toNat)
      (hinside : start + 4 ≤ data.size) (hform : 0xC0 ≤ first ∧ first < 0xE0) :
      Compressed data start (first % 0x20 * 0x1000000 + Bytes.bigEndian data (start + 1) 3)
        (start + 4)
  | whole {start : Nat} (hinside : start + 5 ≤ data.size)
      (hform : (Bytes.byteAt data start).toNat = 0xF0) :
      Compressed data start (Bytes.littleEndian data (start + 1) 4) (start + 5)
  | secondGreatest {start : Nat} (hinside : start + 1 ≤ data.size)
      (hform : (Bytes.byteAt data start).toNat = 0xFE) :
      Compressed data start 0xFFFFFFFE (start + 1)
  | greatest {start : Nat} (hinside : start + 1 ≤ data.size)
      (hform : (Bytes.byteAt data start).toNat = 0xFF) :
      Compressed data start 0xFFFFFFFF (start + 1)

/-- The length of a text at a place, with the place of the text. -/
inductive HasLength (release : Release) (data : ByteArray) : (place length : Int) → Nat → Prop
  | compressed {place : Int} {number next : Nat} (hrelease : release.isAtLeast .v29_0 = true)
      (h : Compressed data place number next) :
      HasLength release data place (Bytes.toSigned number 4) next
  | plain {start : Nat} (hrelease : release.isAtLeast .v29_0 = false)
      (hinside : start + 4 ≤ data.size) :
      HasLength release data start (Bytes.toSigned (Bytes.littleEndian data start 4) 4) (start + 4)

/-- A value of a kind can be decoded at a place. -/
inductive Decodable (release : Release) (data : ByteArray) (kind : Nat) : (place : Int) → Prop
  | none : Decodable release data kind noData
  | number {start width : Nat} (hwidth : numberWidth? kind = some width)
      (hinside : start + width ≤ data.size) : Decodable release data kind start
  | text {place length : Int} {start : Nat} (hkind : kind = Kind.string)
      (hlength : HasLength release data place length start)
      (hinside : length = -1 ∨ 0 ≤ length ∧ start + length ≤ data.size) :
      Decodable release data kind place
  | other {place : Int} (hwidth : numberWidth? kind = .none) (hkind : kind ≠ Kind.string) :
      Decodable release data kind place

theorem requireBytes_bind_eq_ok_iff {α : Type} {size : Nat} {next : Nat → Except Fault α}
    {result : α} : (requireBytes data index place size >>= next) = .ok result ↔
      ∃ start : Nat, place = start ∧ start + size ≤ data.size ∧ next start = .ok result := by
  unfold requireBytes
  split
  · next houtside =>
      refine ⟨nofun, ?_⟩
      rintro ⟨start, rfl, hinside, -⟩
      omega
  · next hinside =>
      constructor
      · exact fun h => ⟨place.toNat, by omega, by omega, h⟩
      · rintro ⟨start, rfl, -, h⟩
        exact h

theorem compressed_of_readCompressed {number next : Nat}
    (h : readCompressed data index place = .ok (number, next)) :
    Compressed data place number next := by
  unfold readCompressed at h
  obtain ⟨start, rfl, hinside, h⟩ := requireBytes_bind_eq_ok_iff.mp h
  dsimp only at h
  split at h
  · next hform =>
      obtain ⟨rfl, rfl⟩ := Prod.mk.inj (Except.ok.inj h)
      exact .oneByte rfl hinside hform
  · split at h
    · next hlow hform =>
        obtain ⟨_, heq, hinside, h⟩ := requireBytes_bind_eq_ok_iff.mp h
        obtain ⟨rfl, rfl⟩ := Prod.mk.inj (Except.ok.inj h)
        exact .twoBytes rfl (by omega) ⟨by omega, hform⟩
    · split at h
      · next hlow hform =>
          obtain ⟨_, heq, hinside, h⟩ := requireBytes_bind_eq_ok_iff.mp h
          obtain ⟨rfl, rfl⟩ := Prod.mk.inj (Except.ok.inj h)
          exact .fourBytes rfl (by omega) ⟨by omega, hform⟩
      · split at h
        · next hform =>
            obtain ⟨_, heq, hinside, h⟩ := requireBytes_bind_eq_ok_iff.mp h
            obtain ⟨rfl, rfl⟩ := Prod.mk.inj (Except.ok.inj h)
            exact .whole (by omega) hform
        · split at h
          · next hform =>
              obtain ⟨rfl, rfl⟩ := Prod.mk.inj (Except.ok.inj h)
              exact .secondGreatest hinside hform
          · split at h
            · next hform =>
                obtain ⟨rfl, rfl⟩ := Prod.mk.inj (Except.ok.inj h)
                exact .greatest hinside hform
            · cases h

theorem readCompressed_of_compressed {number next : Nat} (h : Compressed data place number next) :
    readCompressed data index place = .ok (number, next) := by
  unfold readCompressed
  cases h with
  | oneByte hfirst hinside hform =>
      refine requireBytes_bind_eq_ok_iff.mpr ⟨_, rfl, hinside, ?_⟩
      dsimp only
      rw [← hfirst, if_pos hform]
      rfl
  | twoBytes hfirst hinside hform =>
      refine requireBytes_bind_eq_ok_iff.mpr ⟨_, rfl, by omega, ?_⟩
      dsimp only
      rw [← hfirst, if_neg (by omega), if_pos hform.2]
      exact requireBytes_bind_eq_ok_iff.mpr ⟨_, rfl, hinside, rfl⟩
  | fourBytes hfirst hinside hform =>
      refine requireBytes_bind_eq_ok_iff.mpr ⟨_, rfl, by omega, ?_⟩
      dsimp only
      rw [← hfirst, if_neg (by omega), if_neg (by omega), if_pos hform.2]
      exact requireBytes_bind_eq_ok_iff.mpr ⟨_, rfl, hinside, rfl⟩
  | whole hinside hform =>
      refine requireBytes_bind_eq_ok_iff.mpr ⟨_, rfl, by omega, ?_⟩
      dsimp only
      rw [hform]
      exact requireBytes_bind_eq_ok_iff.mpr ⟨_, rfl, hinside, rfl⟩
  | secondGreatest hinside hform =>
      refine requireBytes_bind_eq_ok_iff.mpr ⟨_, rfl, hinside, ?_⟩
      dsimp only
      rw [hform]
      rfl
  | greatest hinside hform =>
      refine requireBytes_bind_eq_ok_iff.mpr ⟨_, rfl, hinside, ?_⟩
      dsimp only
      rw [hform]
      rfl

theorem readLength_eq_ok_iff {length : Int} {next : Nat} :
    readLength release data index place = .ok (length, next) ↔
      HasLength release data place length next := by
  constructor
  · intro h
    unfold readLength at h
    split at h
    · next hrelease =>
        obtain ⟨⟨number, after⟩, hnumber, h⟩ := bind_eq_ok h
        obtain ⟨rfl, rfl⟩ := Prod.mk.inj (Except.ok.inj h)
        exact .compressed hrelease (compressed_of_readCompressed hnumber)
    · next hrelease =>
        obtain ⟨start, rfl, hinside, h⟩ := requireBytes_bind_eq_ok_iff.mp h
        obtain ⟨rfl, rfl⟩ := Prod.mk.inj (Except.ok.inj h)
        exact .plain (Bool.eq_false_iff.mpr hrelease) hinside
  · intro h
    unfold readLength
    cases h with
    | compressed hrelease h =>
        rw [if_pos hrelease, readCompressed_of_compressed h]
        rfl
    | plain hrelease hinside =>
        rw [if_neg (by simp [hrelease])]
        exact requireBytes_bind_eq_ok_iff.mpr ⟨_, rfl, hinside, rfl⟩

theorem readText_isOk_iff : (∃ value, readText release data index place = .ok value) ↔
    ∃ length start, HasLength release data place length start ∧
      (length = -1 ∨ 0 ≤ length ∧ start + length ≤ data.size) := by
  unfold readText
  constructor
  · rintro ⟨value, h⟩
    obtain ⟨⟨length, start⟩, hlength, h⟩ := bind_eq_ok h
    refine ⟨length, start, readLength_eq_ok_iff.mp hlength, ?_⟩
    dsimp only at h
    split at h
    · next hnone => exact Or.inl hnone
    · split at h
      · cases h
      · obtain ⟨_, heq, hinside, -⟩ := requireBytes_bind_eq_ok_iff.mp h
        exact Or.inr ⟨by omega, by omega⟩
  · rintro ⟨length, start, hlength, hinside⟩
    rw [readLength_eq_ok_iff.mpr hlength, ok_bind]
    dsimp only
    rcases hinside with hnone | ⟨hpos, hinside⟩
    · rw [if_pos hnone]
      exact ⟨_, rfl⟩
    · rw [if_neg (by omega), if_neg (by omega)]
      exact ⟨_, requireBytes_bind_eq_ok_iff.mpr ⟨start, rfl, by omega, rfl⟩⟩

theorem read_isOk_iff : (∃ value, read release data kind place index = .ok value) ↔
    Decodable release data kind place := by
  unfold read
  by_cases hnone : place = noData
  · rw [if_pos hnone, hnone]
    exact ⟨fun _ => .none, fun _ => ⟨_, rfl⟩⟩
  · rw [if_neg hnone]
    cases hwidth : numberWidth? kind with
    | some width =>
        dsimp only
        simp only [requireBytes_bind_eq_ok_iff]
        constructor
        · rintro ⟨_, start, rfl, hinside, -⟩
          exact .number hwidth hinside
        · intro h
          cases h with
          | none => exact absurd rfl hnone
          | number hother hinside =>
              obtain rfl := Option.some.inj (hwidth.symm.trans hother)
              exact ⟨_, _, rfl, hinside, rfl⟩
          | text hkind =>
              subst hkind
              cases hwidth
          | other hother => cases hwidth.symm.trans hother
    | none =>
        dsimp only
        by_cases hkind : kind = Kind.string
        · rw [if_pos hkind, readText_isOk_iff]
          constructor
          · rintro ⟨length, start, hlength, hinside⟩
            exact .text hkind hlength hinside
          · intro h
            cases h with
            | none => exact absurd rfl hnone
            | number hother => cases hwidth.symm.trans hother
            | text _ hlength hinside => exact ⟨_, _, hlength, hinside⟩
            | other _ hother => exact absurd hkind hother
        · rw [if_neg hkind]
          exact ⟨fun _ => .other hwidth hkind, fun _ => ⟨_, rfl⟩⟩

end TypeAtlas.Constant
