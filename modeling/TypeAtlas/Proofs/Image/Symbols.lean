import TypeAtlas.Proofs.Image.Placement
import TypeAtlas.Proofs.Session.Stages

namespace TypeAtlas

variable {parsers : Parsers} {data : ByteArray} {symbol : Symbol} {fault : Fault}

/-- The slice that is parsed when one is asked for is the one at a position in the file, which
depends on the number of slices. -/
def Parsers.PicksAt (parsers : Parsers) (position : Nat → Nat) : Prop :=
  ∀ data slices, parsers.slices data = some slices →
    parsers.anySlice data = slices[position slices.length]?

namespace MachO

variable {slice selected : Slice} {slices : List Slice} {place place' : Nat}

/-- The names of the symbols that are searched for in a file are texts. -/
def NamesText (parsers : Parsers) (data : ByteArray) : Prop :=
  ∀ slice, parsers.anySlice data = some slice → ∀ entry ∈ slice.symbols, entry.name.isSome = true

/-- A row of a table of symbols declares a symbol. An underscore may stand in front of its name. -/
def Slice.Declares (slice : Slice) (symbol : Symbol) : Prop :=
  ∃ entry ∈ slice.symbols, ∃ name, entry.name = some name ∧
    (name = symbol.name ∨ name = "_" ++ symbol.name) ∧ (entry.value : Int) = symbol.address

/-- How much a slice is preferred: the machine matters most, then the width of words. -/
def Slice.rank (slice : Slice) : Nat :=
  if slice.cpuType = preferredMachine then 2 else if slice.width = .bits64 then 1 else 0

/-- The slice at a place is the first of those that are preferred most. -/
structure SelectsAt (slices : List Slice) (place : Nat) (selected : Slice) : Prop where
  stands : slices[place]? = some selected
  above : ∀ other ∈ slices, other.rank ≤ selected.rank
  first : ∀ earlier < place, ∀ other, slices[earlier]? = some other → other.rank < selected.rank

section Symbols

theorem Entry.symbol_isOk_iff {entry : Entry} :
    (∃ symbol, entry.symbol = .ok symbol) ↔ entry.name.isSome = true := by
  unfold Entry.symbol
  cases entry.name <;> simp

theorem Slice.definedSymbols_isOk_iff :
    (∃ found, slice.definedSymbols = .ok found) ↔
      ∀ entry ∈ slice.symbols, entry.name.isSome = true := by
  simp only [definedSymbols, map_isOk_iff, mapM_isOk_iff, Entry.symbol_isOk_iff]

theorem Slice.kind_of_definedSymbols (h : slice.definedSymbols = .error fault) :
    fault.kind = .notText := by
  obtain ⟨entry, -, hentry⟩ := exists_of_mapM_eq_error (map_eq_error h)
  unfold Entry.symbol at hentry
  split at hentry
  · cases hentry
  · obtain rfl := Except.error.inj hentry
    rfl

theorem eq_or_eq_of_plainName (name : String) :
    name = plainName name ∨ name = "_" ++ plainName name := by
  unfold plainName
  split
  · next rest h =>
      refine Or.inr (String.toList_inj.mp ?_)
      simp [h]
  · exact Or.inl rfl

theorem Slice.declares_of_mem {found : List Symbol} (h : slice.definedSymbols = .ok found)
    (hmem : symbol ∈ found) : slice.Declares symbol ∧ symbol.address ≠ 0 := by
  obtain ⟨all, hall, rfl⟩ := map_eq_ok h
  obtain ⟨hsymbol, haddress⟩ := List.mem_filter.mp hmem
  obtain ⟨entry, hentry, hmade⟩ := (mem_iff_of_mapM_eq_ok hall).mp hsymbol
  unfold Entry.symbol at hmade
  split at hmade
  · next name hname =>
      obtain rfl := Except.ok.inj hmade
      exact ⟨⟨entry, hentry, name, hname, eq_or_eq_of_plainName name, rfl⟩,
        bne_iff_ne.mp haddress⟩
  · cases hmade

end Symbols

section Selection

theorem Slice.rank_le (slice : Slice) : slice.rank ≤ 2 := by
  unfold rank
  split
  · exact le_rfl
  · split <;> omega

theorem SelectsAt.unique {selected' : Slice} (h : SelectsAt slices place selected)
    (h' : SelectsAt slices place' selected') : place = place' := by
  rcases Nat.lt_trichotomy place place' with hlt | heq | hlt
  · have hless := h'.first place hlt selected h.stands
    have hle := h.above selected' (List.mem_of_getElem? h'.stands)
    omega
  · exact heq
  · have hless := h.first place' hlt selected' h'.stands
    have hle := h'.above selected (List.mem_of_getElem? h.stands)
    omega

theorem exists_selectsAt_of_find? {test : Slice → Bool} (hfound : slices.find? test = some selected)
    (habove : ∀ other ∈ slices, other.rank ≤ selected.rank)
    (hless : ∀ other ∈ slices, test other = false → other.rank < selected.rank) :
    ∃ place, SelectsAt slices place selected := by
  obtain ⟨-, place, hlt, hplace, hbefore⟩ := List.find?_eq_some_iff_getElem.mp hfound
  refine ⟨place, List.getElem?_eq_some_iff.mpr ⟨hlt, hplace⟩, habove,
    fun earlier hearlier other hother => ?_⟩
  obtain ⟨_, rfl⟩ := List.getElem?_eq_some_iff.mp hother
  exact hless _ (List.getElem_mem _) (by simpa using hbefore earlier hearlier)

theorem exists_selectsAt (h : select? slices = some selected) :
    ∃ place, SelectsAt slices place selected := by
  unfold select? at h
  split at h
  · next found hfound =>
      obtain rfl := Option.some.inj h
      have hmachine : found.cpuType = preferredMachine := by simpa using List.find?_some hfound
      have hrank : found.rank = 2 := if_pos hmachine
      refine exists_selectsAt_of_find? hfound (fun other _ => hrank ▸ other.rank_le)
        fun other _ hother => ?_
      rw [hrank, Slice.rank, if_neg (by simpa using hother)]
      split <;> omega
  · next hnone =>
      have hmachine : ∀ other ∈ slices, ¬other.cpuType = preferredMachine := by simpa using hnone
      have hranks : ∀ other ∈ slices, other.rank = if other.width = .bits64 then 1 else 0 :=
        fun other hother => if_neg (hmachine other hother)
      split at h
      · next found hfound =>
          obtain rfl := Option.some.inj h
          have hwidth : found.width = .bits64 := by simpa using List.find?_some hfound
          have hrank : found.rank = 1 :=
            (hranks _ (List.mem_of_find?_eq_some hfound)).trans (if_pos hwidth)
          refine exists_selectsAt_of_find? hfound (fun other hother => ?_)
            fun other hother hwidth => ?_
          · rw [hrank, hranks other hother]
            split <;> omega
          · rw [hrank, hranks other hother, if_neg (by simpa using hwidth)]
            omega
      · next hnone =>
          have hwidth : ∀ other ∈ slices, ¬other.width = .bits64 := by simpa using hnone
          rw [List.head?_eq_getElem?] at h
          refine ⟨0, h, fun other hother => ?_, fun _ hlt => absurd hlt (Nat.not_lt_zero _)⟩
          rw [hranks other hother, if_neg (hwidth other hother)]
          exact Nat.zero_le _

/-- No position is that of the selected slice in all bundles of more than one slice. -/
theorem exists_not_selectsAt (place : Nat) {count : Nat} (hcount : 2 ≤ count) :
    ∃ slices, slices.length = count ∧ ∀ selected, ¬SelectsAt slices place selected := by
  let sliceFor (machine : Int) : Slice := ⟨0, machine, .bits64, [], []⟩
  obtain ⟨other, hother, hne⟩ : ∃ other < count, other ≠ place := by
    rcases Nat.eq_zero_or_pos place with rfl | hpos
    · exact ⟨1, hcount, Nat.one_ne_zero⟩
    · exact ⟨0, by omega, hpos.ne⟩
  refine ⟨(List.replicate count (sliceFor 7)).set other (sliceFor preferredMachine), by simp,
    fun selected h => ?_⟩
  have hstands := h.stands
  rw [List.getElem?_set_ne hne] at hstands
  obtain ⟨hlt, hselected⟩ := List.getElem?_eq_some_iff.mp hstands
  obtain rfl : selected = sliceFor 7 := by simpa using hselected.symm
  have hset : ((List.replicate count (sliceFor 7)).set other (sliceFor preferredMachine))[other]? =
      some (sliceFor preferredMachine) := by simp [hother]
  exact absurd (h.above _ (List.mem_of_getElem? hset)) (by decide)

end Selection

end MachO

theorem Registrations.mem_symbolsAmong {found : List Symbol} {symbol : Symbol}
    (h : symbol ∈ symbolsAmong found) :
    (symbol.name = codeSymbol ∨ symbol.name = metadataSymbol) ∧ symbol ∈ found := by
  obtain ⟨name, hname, hsymbol⟩ := List.mem_filterMap.mp h
  obtain ⟨address, hlookup, rfl⟩ := Option.map_eq_some_iff.mp hsymbol
  obtain ⟨other, hother, rfl⟩ := Option.map_eq_some_iff.mp hlookup
  obtain rfl : other.name = name := by simpa using List.find?_some hother
  exact ⟨by simpa using hname, List.mem_of_find?_eq_some hother⟩

namespace Registrations

variable {image : Image} {symbols : List Symbol} {symbolSearch : Bool}

theorem symbolsOf_isOk_iff :
    (∃ symbols, symbolsOf parsers image symbolSearch = .ok symbols) ↔
      (symbolSearch = true → image.isDumped = false → image.container = .machO →
        MachO.NamesText parsers image.data) := by
  have hread : (∃ found, image.symbols parsers = .ok found) ↔
      (image.container = .machO → MachO.NamesText parsers image.data) := by
    unfold Image.symbols MachO.NamesText
    cases image.container with
    | elf | pe => simp
    | machO =>
        cases parsers.anySlice image.data with
        | none => simp
        | some slice => simp [map_isOk_iff, MachO.Slice.definedSymbols_isOk_iff]
  unfold symbolsOf
  cases symbolSearch with
  | false => simp
  | true => cases image.isDumped <;> simp [map_isOk_iff, hread]

theorem kind_of_symbolsOf (h : symbolsOf parsers image symbolSearch = .error fault) :
    fault.kind = .notText := by
  unfold symbolsOf at h
  split at h
  · cases h
  · have hread := map_eq_error h
    unfold Image.symbols at hread
    split at hread
    · cases hread
    · cases hread
    · split at hread
      · cases hread
      · exact MachO.Slice.kind_of_definedSymbols (map_eq_error hread)

theorem declares_of_mem_symbolsOf (hcontainer : image.container = .machO)
    (h : symbolsOf parsers image symbolSearch = .ok symbols) (hmem : symbol ∈ symbols) :
    (symbol.name = codeSymbol ∨ symbol.name = metadataSymbol) ∧ symbol.address ≠ 0 ∧
      ∃ picked, parsers.anySlice image.data = some picked ∧ picked.Declares symbol := by
  unfold symbolsOf at h
  split at h
  · obtain rfl := Except.ok.inj h
    cases hmem
  · obtain ⟨read, hread, rfl⟩ := map_eq_ok h
    unfold Image.symbols at hread
    rw [hcontainer] at hread
    dsimp only at hread
    split at hread
    · obtain rfl := Except.ok.inj hread
      exact absurd (mem_symbolsAmong hmem).2 List.not_mem_nil
    · next picked hpicked =>
        obtain ⟨found, hfound, rfl⟩ := map_eq_ok hread
        obtain ⟨hname, hsymbol⟩ := mem_symbolsAmong hmem
        obtain ⟨hdeclares, haddress⟩ := MachO.Slice.declares_of_mem hfound hsymbol
        exact ⟨hname, haddress, picked, hpicked, hdeclares⟩

end Registrations

namespace Image

open MachO Registrations

variable {dumpBase : Option Int} {image : Image}

theorem exists_selected_of_load (hload : (load parsers data dumpBase).outcome.1 = .ok image)
    (hcontainer : image.container = .machO) :
    ∃ slices place selected, parsers.slices data = some slices ∧
      SelectsAt slices place selected ∧
        image.segments = Placement.segments selected.declaration dumpBase := by
  obtain ⟨container, declared, -, hdeclared, hplaced⟩ := load_eq_ok_iff.mp hload
  obtain ⟨-, rfl⟩ := ofDeclaration_eq_ok_iff.mp hplaced
  obtain rfl : container = .machO := hcontainer
  obtain ⟨slices, selected, hslices, hselected, rfl⟩ := MachO.exists_of_declaration hdeclared
  obtain ⟨place, hplace⟩ := exists_selectsAt hselected
  exact ⟨slices, place, selected, hslices, hplace, rfl⟩

/-- The segments of an image are those of the slice that is selected, but the symbols that are
looked for come from a slice that is picked by its position in the file. Both are the same only if
the slice at that position is selected, which no position is in all bundles. -/
theorem symbols_from_picked_slice {position : Nat → Nat} (hpicks : parsers.PicksAt position)
    (hload : (load parsers data dumpBase).outcome.1 = .ok image)
    (hcontainer : image.container = .machO) :
    (∃ slices place selected, parsers.slices data = some slices ∧
      SelectsAt slices place selected ∧
      image.segments = Placement.segments selected.declaration dumpBase ∧
      (∀ symbolSearch symbols, symbolsOf parsers image symbolSearch = .ok symbols →
        ∀ symbol ∈ symbols, (symbol.name = codeSymbol ∨ symbol.name = metadataSymbol) ∧
          symbol.address ≠ 0 ∧ ∃ picked, slices[position slices.length]? = some picked ∧
            picked.Declares symbol) ∧
      (position slices.length = place ↔
        ∃ picked, SelectsAt slices (position slices.length) picked)) ∧
      ∀ count, 2 ≤ count → ∃ slices, slices.length = count ∧
        ∀ selected, ¬SelectsAt slices (position count) selected := by
  refine ⟨?_, fun count hcount => exists_not_selectsAt (position count) hcount⟩
  obtain ⟨rfl, -, -⟩ := placed_of_load hload
  obtain ⟨slices, place, selected, hslices, hselected, hsegments⟩ :=
    exists_selected_of_load hload hcontainer
  refine ⟨slices, place, selected, hslices, hselected, hsegments,
    fun symbolSearch symbols hsymbols symbol hsymbol => ?_, ?_⟩
  · rw [← hpicks _ _ hslices]
    exact declares_of_mem_symbolsOf hcontainer hsymbols hsymbol
  · constructor
    · rintro rfl
      exact ⟨selected, hselected⟩
    · rintro ⟨picked, hpicked⟩
      exact hpicked.unique hselected

/-- A bundle of three slices. The first one and the last one, which are the same, declare a symbol;
the one between them is for the preferred machine and declares none. -/
def bundleFile : ByteArray :=
  ⟨#[0xCA, 0xFE, 0xBA, 0xBE, 0, 0, 0, 3,
    0, 0, 0, 7, 0, 0, 0, 0, 0, 0, 0, 0x44, 0, 0, 0, 0x8B, 0, 0, 0, 0,
    1, 0, 0, 0xC, 0, 0, 0, 0, 0, 0, 0, 0xCF, 0, 0, 0, 0x68, 0, 0, 0, 0,
    0, 0, 0, 7, 0, 0, 0, 0, 0, 0, 0, 0x44, 0, 0, 0, 0x8B, 0, 0, 0, 0,
    0xCE, 0xFA, 0xED, 0xFE, 7, 0, 0, 0, 0, 0, 0, 0, 6, 0, 0, 0, 2, 0, 0, 0, 0x50, 0, 0, 0, 0, 0, 0,
    0, 1, 0, 0, 0, 0x38, 0, 0, 0, 0x5F, 0x5F, 0x54, 0x45, 0x58, 0x54, 0, 0, 0, 0, 0, 0, 0, 0, 0, 0,
    0, 0x40, 0, 0, 0, 0x10, 0, 0, 0, 0, 0, 0, 0x8B, 0, 0, 0, 5, 0, 0, 0, 5, 0, 0, 0, 0, 0, 0, 0, 0,
    0, 0, 0, 2, 0, 0, 0, 0x18, 0, 0, 0, 0x6C, 0, 0, 0, 1, 0, 0, 0, 0x77, 0, 0, 0, 0x14, 0, 0, 0, 1,
    0, 0, 0, 0xF, 1, 0, 0, 0x77, 0, 0, 0, 0x67, 0x5F, 0x43, 0x6F, 0x64, 0x65, 0x52, 0x65, 0x67,
    0x69, 0x73, 0x74, 0x72, 0x61, 0x74, 0x69, 0x6F, 0x6E, 0, 0xCF, 0xFA, 0xED, 0xFE, 0xC, 0, 0, 1,
    0, 0, 0, 0, 6, 0, 0, 0, 1, 0, 0, 0, 0x48, 0, 0, 0, 0, 0, 0, 0, 0, 0, 0, 0, 0x19, 0, 0, 0, 0x48,
    0, 0, 0, 0x5F, 0x5F, 0x54, 0x45, 0x58, 0x54, 0, 0, 0, 0, 0, 0, 0, 0, 0, 0, 0, 0x40, 0, 0, 0, 0,
    0, 0, 0, 0x10, 0, 0, 0, 0, 0, 0, 0, 0, 0, 0, 0, 0, 0, 0, 0x68, 0, 0, 0, 0, 0, 0, 0, 5, 0, 0, 0,
    5, 0, 0, 0, 0, 0, 0, 0, 0, 0, 0, 0]⟩

/-- The slice of the bundle that is not for the preferred machine. It is listed twice. -/
def otherSlice : Slice where
  offset := 0x44
  cpuType := 7
  width := .bits32
  commands := [⟨"__TEXT", 0x4000, 0x1000, 0, 0x8B, 5⟩]
  symbols := [⟨some codeSymbol, 0x77⟩]

def preferredSlice : Slice where
  offset := 0xCF
  cpuType := preferredMachine
  width := .bits64
  commands := [⟨"__TEXT", 0x4000, 0x1000, 0, 0x68, 5⟩]
  symbols := []

def bundleSlices : List Slice := [otherSlice, preferredSlice, otherSlice]

theorem slices_bundleFile : MachO.slices bundleFile = bundleSlices := by
  decide +kernel

def bundleImage : Image where
  data := bundleFile
  container := .machO
  machine := .arm64
  width := .bits64
  base := 0x4000
  segments := [⟨"__TEXT", 0xCF, 0x68, 0x4000, 0x1000, ⟨true, false, true⟩⟩]
  isDumped := false

/-- Parsers that pick the last slice, when one is asked for. -/
def lastParsers : Parsers :=
  { formatParsers with anySlice := fun data => (MachO.slices data).getLast? }

theorem picksAt_formatParsers : formatParsers.PicksAt fun _ => 0 := by
  intro data slices hslices
  obtain rfl := Option.some.inj hslices
  exact List.head?_eq_getElem?

theorem picksAt_lastParsers : lastParsers.PicksAt fun count => count - 1 := by
  intro data slices hslices
  obtain rfl := Option.some.inj hslices
  exact List.getLast?_eq_getElem?

set_option maxRecDepth 4000 in
theorem load_bundleFile {parsers : Parsers} (h : parsers.slices bundleFile = some bundleSlices) :
    (load parsers bundleFile none).outcome.1 = .ok bundleImage := by
  have hdeclared : (MachO.declaration parsers bundleFile).outcome.1 =
      .ok ⟨.arm64, .bits64, 0x4000,
        [⟨"__TEXT", 0xCF, 0x68, 0x4000, 0x1000, ⟨true, false, true⟩⟩]⟩ := by
    rw [MachO.declaration, h]
    decide +kernel
  exact load_eq_ok_iff.mpr ⟨.machO, _, by cbv, hdeclared, by cbv⟩

theorem symbolsOf_bundleImage {parsers : Parsers}
    (h : parsers.anySlice bundleFile = some otherSlice) :
    symbolsOf parsers bundleImage true = .ok [⟨codeSymbol, 0x77⟩] := by
  rw [symbolsOf]
  simp only [Image.symbols, bundleImage, h]
  rfl

/-- The address of the registration comes from a slice that is not selected, whether the first one
is picked or the last one. -/
theorem symbols_bundleFile :
    (∀ parsers ∈ [formatParsers, lastParsers],
      (load parsers bundleFile none).outcome.1 = .ok bundleImage ∧
        symbolsOf parsers bundleImage true = .ok [⟨codeSymbol, 0x77⟩]) ∧
      ∃ slices place selected, formatParsers.slices bundleFile = some slices ∧
        SelectsAt slices place selected ∧ ¬selected.Declares ⟨codeSymbol, 0x77⟩ ∧
          (∃ first, slices[0]? = some first ∧ first.Declares ⟨codeSymbol, 0x77⟩) ∧
            ∃ last, slices[slices.length - 1]? = some last ∧ last.Declares ⟨codeSymbol, 0x77⟩ := by
  have hslices : formatParsers.slices bundleFile = some bundleSlices :=
    congrArg some slices_bundleFile
  have hfirst : symbolsOf formatParsers bundleImage true = .ok [⟨codeSymbol, 0x77⟩] :=
    symbolsOf_bundleImage (picksAt_formatParsers _ _ hslices)
  have hlast : symbolsOf lastParsers bundleImage true = .ok [⟨codeSymbol, 0x77⟩] :=
    symbolsOf_bundleImage (picksAt_lastParsers _ _ hslices)
  have hpreferred : SelectsAt bundleSlices 1 preferredSlice := by
    refine ⟨rfl, by decide, fun earlier hlt other hother => ?_⟩
    obtain rfl := Nat.lt_one_iff.mp hlt
    obtain rfl := Option.some.inj hother
    decide
  obtain ⟨⟨slices, place, selected, hslices', hselected, -, hdeclares, -⟩, -⟩ :=
    symbols_from_picked_slice picksAt_formatParsers (load_bundleFile hslices) rfl
  obtain ⟨⟨slices', -, -, hslices'', -, -, hdeclares', -⟩, -⟩ :=
    symbols_from_picked_slice picksAt_lastParsers (load_bundleFile hslices) rfl
  obtain rfl := Option.some.inj (hslices.symm.trans hslices')
  obtain rfl := Option.some.inj (hslices.symm.trans hslices'')
  obtain rfl := hselected.unique hpreferred
  obtain rfl := Option.some.inj (hselected.stands.symm.trans hpreferred.stands)
  refine ⟨?_, bundleSlices, 1, preferredSlice, hslices, hselected, nofun,
    (hdeclares true _ hfirst _ (List.mem_singleton_self _)).2.2,
    (hdeclares' true _ hlast _ (List.mem_singleton_self _)).2.2⟩
  simpa using ⟨⟨load_bundleFile hslices, hfirst⟩, load_bundleFile hslices, hlast⟩

end Image

end TypeAtlas
