import TypeAtlas.Proofs.Image.Contents
import TypeAtlas.Proofs.Resolution.Attached
import TypeAtlas.Proofs.Session.Asking

namespace TypeAtlas

/-- Two addresses lie in the same segment. -/
def Image.SharesSegment (image : Image) (address other : Int) : Prop :=
  ∃ segment ∈ image.segments, segment.contains address = true ∧ segment.contains other = true

theorem Image.exists_segmentAt?_iff {image : Image} {address other : Int}
    (hlaid : image.memory.Laid) :
    (∃ segment, image.memory.space.segmentAt? address = some segment ∧
        segment.contains other = true) ↔ image.SharesSegment address other := by
  have hmem : ∀ segment, segment ∈ image.memory.space.byAddress ↔ segment ∈ image.segments :=
    fun _ => AddressSpace.mem_ofSegments
  simp only [Memory.segmentAt?_eq_some_iff hlaid, hmem, SharesSegment, and_assoc]

theorem Image.SharesSegment.of_between {image : Image} {first between last : Int}
    (h : image.SharesSegment last first) (hfirst : first ≤ between) (hlast : between ≤ last) :
    image.SharesSegment last between := by
  obtain ⟨segment, hmem, hcontains, hstart⟩ := h
  refine ⟨segment, hmem, hcontains, ?_⟩
  rw [Segment.contains_iff] at *
  omega

namespace Session

variable {parsers : Parsers} {session after : Session} {image : Image} {query : Query}
  {reply : Answer} {address start : Int} {method : Nat}

/-- A session over an image: an opened one, or one that has been asked something. -/
inductive Reached (image : Image) : Session → Prop
  | opened (graph : TypeGraph) (registrations : Registrations) :
      Reached image (ofRegistrations image graph registrations)
  | asked {session after : Session} {query : Query} {reply : Answer} (h : Reached image session)
      (hask : (session.ask query).outcome.1 = .ok (reply, after)) : Reached image after

theorem reached_of_ofBytes {options : Options} {imageData metadataData : ByteArray}
    (h : (ofBytes parsers options imageData metadataData).outcome.1 = .ok session) :
    ∃ image, (Image.load parsers imageData (options.dumpBase.map Int.ofNat)).outcome.1 = .ok image ∧
      Reached image session := by
  rw [outcome_ofBytes_eq] at h
  obtain ⟨image, himage, h⟩ := bind_eq_ok h
  obtain ⟨metadata, -, h⟩ := bind_eq_ok h
  obtain ⟨graph, -, h⟩ := bind_eq_ok h
  obtain ⟨symbols, registrations, -, -, rfl⟩ := exists_of_ofGraph h
  exact ⟨image, himage, .opened graph registrations⟩

theorem Current.exists_keeping_of_ask (hcurrent : session.Current)
    (hask : (session.ask query).outcome.1 = .ok (reply, after)) :
    ∃ index, after = session.keeping index ∧ after.Current := by
  obtain ⟨index, houtcome, hafter⟩ := hcurrent.outcome_ask query
  obtain ⟨-, rfl⟩ := Prod.mk.inj (Except.ok.inj (hask.symm.trans houtcome))
  exact ⟨index, rfl, hafter⟩

theorem Reached.exists_keeping (h : Reached image session) :
    session.Current ∧ ∃ graph registrations index,
      session = (ofRegistrations image graph registrations).keeping index := by
  induction h with
  | opened graph registrations =>
      exact ⟨current_resolved _, graph, registrations, none, rfl⟩
  | asked _ hask ih =>
      obtain ⟨hcurrent, graph, registrations, _, rfl⟩ := ih
      obtain ⟨index, rfl, hafter⟩ := hcurrent.exists_keeping_of_ask hask
      exact ⟨hafter, graph, registrations, index, rfl⟩

/-- A method starts at an address. -/
def StartsAt (session : Session) (method : Nat) (start : Int) : Prop :=
  session.graph.methodAddress? method = some start

/-- A method starts last at or below an address: no method starts closer to the address, and no
method with a greater number starts at the same place. -/
structure StartsLast (session : Session) (address start : Int) (method : Nat) : Prop where
  closest : IsGreatest {place | place ≤ address ∧ ∃ other, session.StartsAt other place} start
  greatest : IsGreatest {other | session.StartsAt other start} method

theorem Current.startsAt_iff (hcurrent : session.Current) : session.StartsAt method start ↔
    method < session.graph.methods.size ∧
      session.resolver.resolve.methodAddress? method = some start := by
  unfold StartsAt
  rw [← hcurrent.attached, TypeGraph.methodAddress?_attachTo, Option.ite_none_right_eq_some]
  rfl

theorem Reached.sharesSegment_of_startsAt (h : Reached image session)
    (hstart : session.StartsAt method start) : image.SharesSegment start start := by
  obtain ⟨hcurrent, graph, registrations, index, rfl⟩ := h.exists_keeping
  obtain ⟨-, haddress⟩ := hcurrent.startsAt_iff.mp hstart
  obtain ⟨pointer, hpointer⟩ := Resolver.exists_executable_of_methodAddress? haddress
  obtain ⟨segment, hmem, hcontains, -⟩ :=
    (Resolver.hasCodeAt_of_executable? rfl rfl hpointer).executable
  exact ⟨segment, hmem, hcontains, hcontains⟩

section Sorted

theorem isBefore_iff {a b : Int × Nat} :
    isBefore a b = true ↔ a.1 < b.1 ∨ a.1 = b.1 ∧ a.2 ≤ b.2 := by
  simp [isBefore]

theorem mem_sortedMethods_iff (hcurrent : session.Current) :
    (start, method) ∈ session.sortedMethods ↔ session.StartsAt method start := by
  rw [sortedMethods, List.mem_mergeSort, List.mem_filterMap]
  constructor
  · rintro ⟨other, -, h⟩
    obtain ⟨found, hfound, heq⟩ := Option.map_eq_some_iff.mp h
    obtain ⟨rfl, rfl⟩ := Prod.mk.inj heq
    exact hfound
  · intro h
    refine ⟨method, List.mem_range.mpr (hcurrent.startsAt_iff.mp h).1, ?_⟩
    exact Option.map_eq_some_iff.mpr ⟨start, h, rfl⟩

theorem pairwise_sortedMethods (session : Session) :
    session.sortedMethods.Pairwise fun a b => a.1 < b.1 ∨ a.1 = b.1 ∧ a.2 ≤ b.2 := by
  have hsorted : session.sortedMethods.Pairwise fun a b => isBefore a b = true := by
    apply List.pairwise_mergeSort
    · intro a b c hab hbc
      rw [isBefore_iff] at *
      omega
    · intro a b
      rw [Bool.or_eq_true, isBefore_iff, isBefore_iff]
      omega
  exact hsorted.imp isBefore_iff.mp

theorem takeWhile_sortedMethods (session : Session) (address : Int) :
    session.sortedMethods.takeWhile (fun entry => decide (entry.1 ≤ address)) =
      session.sortedMethods.filter fun entry => decide (entry.1 ≤ address) := by
  apply takeWhile_eq_filter (session.pairwise_sortedMethods.imp fun h => ?_)
  omega

theorem startsLast_of_getLast? (hcurrent : session.Current)
    (h : (session.sortedMethods.takeWhile fun entry => decide (entry.1 ≤ address)).getLast? =
      some (start, method)) : session.StartsLast address start method := by
  rw [takeWhile_sortedMethods] at h
  obtain ⟨hmem, hle⟩ := List.mem_filter.mp (List.mem_of_getLast? h)
  rw [decide_eq_true_eq] at hle
  have hlast : ∀ {other : Nat} {place : Int}, session.StartsAt other place → place ≤ address →
      place < start ∨ place = start ∧ other ≤ method := by
    intro other place hother hplace
    have hmem : (place, other) ∈
        session.sortedMethods.filter fun entry => decide (entry.1 ≤ address) :=
      List.mem_filter.mpr ⟨(mem_sortedMethods_iff hcurrent).mpr hother, decide_eq_true hplace⟩
    exact rel_of_getLast?_eq_some (session.pairwise_sortedMethods.filter _) h
      (Or.inr ⟨rfl, le_rfl⟩) hmem
  have hstarts := (mem_sortedMethods_iff hcurrent).mp hmem
  refine ⟨⟨⟨hle, method, hstarts⟩, ?_⟩, hstarts, ?_⟩
  · rintro place ⟨hplace, other, hother⟩
    rcases hlast hother hplace with hlt | ⟨rfl, -⟩
    · exact hlt.le
    · exact le_rfl
  · intro other hother
    rcases hlast hother hle with hlt | ⟨-, hother⟩
    · exact absurd hlt (lt_irrefl _)
    · exact hother

theorem StartsLast.unique {other : Nat} {place : Int} (h : session.StartsLast address start method)
    (hother : session.StartsLast address place other) : place = start ∧ other = method := by
  obtain rfl := hother.closest.unique h.closest
  exact ⟨rfl, hother.greatest.unique h.greatest⟩

theorem exists_startsLast (hcurrent : session.Current) (hstart : session.StartsAt method start)
    (hle : start ≤ address) : ∃ place other,
      (session.sortedMethods.takeWhile fun entry => decide (entry.1 ≤ address)).getLast? =
          some (place, other) ∧
        session.StartsLast address place other := by
  cases hlast : (session.sortedMethods.takeWhile fun entry =>
      decide (entry.1 ≤ address)).getLast? with
  | none =>
      rw [List.getLast?_eq_none_iff, takeWhile_sortedMethods, List.filter_eq_nil_iff] at hlast
      have hnot := hlast _ ((mem_sortedMethods_iff hcurrent).mpr hstart)
      simp only [decide_eq_true_eq] at hnot
      exact absurd hle hnot
  | some entry => exact ⟨entry.1, entry.2, rfl, startsLast_of_getLast? hcurrent hlast⟩

theorem getLast?_eq_some_iff_startsLast (hcurrent : session.Current) :
    (session.sortedMethods.takeWhile fun entry => decide (entry.1 ≤ address)).getLast? =
      some (start, method) ↔ session.StartsLast address start method := by
  refine ⟨startsLast_of_getLast? hcurrent, fun h => ?_⟩
  obtain ⟨hle, other, hother⟩ := h.closest.1
  obtain ⟨place, found, hlast, hfound⟩ := exists_startsLast hcurrent hother hle
  obtain ⟨rfl, rfl⟩ := h.unique hfound
  exact hlast

end Sorted

section Lookup

theorem methodIn?_eq_some_iff {space : AddressSpace} {sorted : List (Int × Nat)} :
    methodIn? space sorted address = some method ↔
      ∃ start segment,
        (sorted.takeWhile fun entry => decide (entry.1 ≤ address)).getLast? =
            some (start, method) ∧
          space.segmentAt? address = some segment ∧ segment.contains start = true := by
  simp only [methodIn?, Option.bind_eq_bind, Option.bind_eq_some_iff,
    Option.ite_none_right_eq_some, Option.some.injEq, Prod.exists]
  constructor
  · rintro ⟨start, other, hlast, segment, hsegment, hcontains, rfl⟩
    exact ⟨start, segment, hlast, hsegment, hcontains⟩
  · rintro ⟨start, segment, hlast, hsegment, hcontains⟩
    exact ⟨start, method, hlast, segment, hsegment, hcontains, rfl⟩

theorem methodIn?_sortedMethods_iff (hlaid : image.memory.Laid) (hcurrent : session.Current) :
    methodIn? image.memory.space session.sortedMethods address = some method ↔
      ∃ start, session.StartsLast address start method ∧ image.SharesSegment address start := by
  simp only [methodIn?_eq_some_iff, getLast?_eq_some_iff_startsLast hcurrent, exists_and_left,
    Image.exists_segmentAt?_iff hlaid]

/-- No method further below is found in place of the last one: it would start in the same segment,
and so would the last one. -/
theorem isSome_methodIn?_iff (hlaid : image.memory.Laid) (hcurrent : session.Current) :
    (methodIn? image.memory.space session.sortedMethods address).isSome = true ↔
      ∃ method start, session.StartsAt method start ∧ start ≤ address ∧
        image.SharesSegment address start := by
  rw [Option.isSome_iff_exists]
  simp only [methodIn?_sortedMethods_iff hlaid hcurrent]
  constructor
  · rintro ⟨method, start, hlast, hshares⟩
    exact ⟨method, start, hlast.greatest.1, hlast.closest.1.1, hshares⟩
  · rintro ⟨method, start, hstart, hle, hshares⟩
    obtain ⟨place, other, -, hlast⟩ := exists_startsLast hcurrent hstart hle
    have hcloser : start ≤ place := hlast.closest.2 ⟨hle, method, hstart⟩
    exact ⟨other, place, hlast, hshares.of_between hcloser hlast.closest.1.1⟩

/-- In every session over a loaded image, each address is looked up exactly: a method is found
exactly if some method starts at or below the address and in its segment. It is the one that starts
last there, and of those that start at the same place the one with the greatest number. Where a
method starts, a method that starts there is found. -/
theorem methodAt_of_load {data : ByteArray} {dumpBase : Option Int}
    (hload : (Image.load parsers data dumpBase).outcome.1 = .ok image)
    (hsession : Reached image session)
    (address : Int) :
    ∃ found after, (session.ask (.methodAt address)).outcome.1 = .ok (.index found, after) ∧
      (found.isSome = true ↔ ∃ method start, session.StartsAt method start ∧ start ≤ address ∧
        image.SharesSegment address start) ∧
      (∀ method, found = some method ↔
        ∃ start, session.StartsLast address start method ∧ image.SharesSegment address start) ∧
      ∀ method, session.StartsAt method address →
        ∃ other, found = some other ∧ session.StartsAt other address := by
  have hlaid := Memory.laid_of_load hload
  obtain ⟨hcurrent, graph, registrations, _, hkept⟩ := hsession.exists_keeping
  have hmemory : session.resolver.memory = image.memory := by rw [hkept]; rfl
  obtain ⟨index, hask, -⟩ := hcurrent.outcome_ask (.methodAt address)
  rw [answer, hmemory] at hask
  have hsome := @isSome_methodIn?_iff session image address hlaid hcurrent
  have hfound := fun method =>
    @methodIn?_sortedMethods_iff session image address method hlaid hcurrent
  refine ⟨_, _, hask, hsome, hfound, fun method hstart => ?_⟩
  have hshares := hsession.sharesSegment_of_startsAt hstart
  obtain ⟨other, hother⟩ :=
    Option.isSome_iff_exists.mp (hsome.mpr ⟨method, address, hstart, le_rfl, hshares⟩)
  obtain ⟨start, hlast, -⟩ := (hfound other).mp hother
  -- No method starts closer to the address than the one that starts there.
  have hsame : start = address :=
    le_antisymm hlast.closest.1.1 (hlast.closest.2 ⟨le_rfl, method, hstart⟩)
  exact ⟨other, hother, hsame ▸ hlast.greatest.1⟩

/-- Four methods: two that start at the same address, one that starts in front of them, and one
without an address. -/
def tiedGraph : TypeGraph :=
  { Resolver.smallResolver.graph with
    modules := #[], types := #[], methods := Array.replicate 4 ⟨"a", 0, 0, [], [], 0, 0, 0, 1⟩
    methodAddresses := #[0x1020, 0x1010, 0x1020, 0] }

def tiedSession : Session :=
  ofRegistrations Image.gappedImage tiedGraph ⟨none, none, []⟩

theorem methodAt_tiedSession : ∃ after last,
    (tiedSession.ask (.methodAt 0x1025)).outcome.1 = .ok (.index (some 2), after) ∧
      tiedSession.StartsLast 0x1025 0x1020 2 ∧
      (after.ask (.methodAt 0x107A)).outcome.1 = .ok (.index none, last) ∧
      ¬∃ method start, after.StartsAt method start ∧ start ≤ 0x107A ∧
        Image.gappedImage.SharesSegment 0x107A start := by
  have hopened : Reached Image.gappedImage tiedSession := .opened _ _
  obtain ⟨found, after, hask, -, hfound, -⟩ :=
    methodAt_of_load Image.load_gappedFile hopened 0x1025
  obtain ⟨other, last, hagain, hother, -⟩ :=
    methodAt_of_load Image.load_gappedFile (.asked hopened hask) 0x107A
  have hsecond : (tiedSession.methodAt 0x1025).1 = some 2 := by cbv
  have hnone : ((tiedSession.methodAt 0x1025).2.methodAt 0x107A).1 = none := by cbv
  obtain ⟨hindex, rfl⟩ := Prod.mk.inj (Except.ok.inj hask)
  obtain ⟨hindex', rfl⟩ := Prod.mk.inj (Except.ok.inj hagain)
  obtain rfl := hsecond.symm.trans (Answer.index.inj hindex)
  obtain rfl := hnone.symm.trans (Answer.index.inj hindex')
  obtain ⟨start, hlast, -⟩ := (hfound 2).mp rfl
  have hstart : tiedSession.StartsAt 2 0x1020 := by
    rw [StartsAt]
    cbv
  obtain rfl := Option.some.inj (hstart.symm.trans hlast.greatest.1)
  exact ⟨_, _, hask, hlast, hagain, mt hother.mpr Bool.false_ne_true⟩

end Lookup

end Session

end TypeAtlas
