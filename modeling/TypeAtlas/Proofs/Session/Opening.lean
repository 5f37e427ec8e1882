import TypeAtlas.Proofs.Image.Symbols
import TypeAtlas.Proofs.Linking.Unused
import TypeAtlas.Proofs.Registration.Discovery
import TypeAtlas.Proofs.Resolution.Attached

namespace TypeAtlas

open Logged

variable {parsers : Parsers} {options : Options} {imageData metadataData : ByteArray}
  {image : Image} {metadata : Metadata} {graph : TypeGraph} {session : Session} {fault : Fault}

namespace TypeGraph

theorem fits_types (hmetadata : (Metadata.read metadataData override).outcome.1 = .ok metadata)
    (hgraph : (build metadata).outcome.1 = .ok graph) (width : PointerWidth) :
    Scan.Fits width graph.types.size := by
  obtain ⟨links, hlinked⟩ := exists_linked_of_build hgraph
  have hrows : metadata.rows.types.size = (metadata.table .typeDefinitions).size := by
    simp [Metadata.rows, Metadata.rowsOf]
  have hlt := Metadata.size_table_lt hmetadata .typeDefinitions
  have hsize := hlinked.types.size
  have hwidth : (2 : Int) ^ 32 ≤ 256 ^ width.bytes := by cases width <;> decide
  unfold Scan.Fits
  omega

end TypeGraph

namespace Session

theorem resolve_resolved (session : Session) :
    session.resolved.resolver.resolve = session.resolver.resolve :=
  Resolver.resolve_attach

theorem graph_resolved (session : Session) :
    session.resolved.graph = session.resolved.resolver.resolve.attachTo session.graph := by
  rw [resolve_resolved]
  rfl

theorem report_resolved (session : Session) :
    session.resolved.report = session.resolved.resolver.resolve.report := by
  rw [resolve_resolved]
  rfl

theorem outcome_ofGraph (parsers : Parsers) (options : Options) (image : Image)
    (graph : TypeGraph) :
    (ofGraph parsers options image graph).outcome.1 =
      (Registrations.symbolsOf parsers image options.symbolSearch >>=
        Registrations.find image.memory graph options.hints).map
          (ofRegistrations image graph) := by
  have hlocate := outcome_locate parsers image graph options.hints
  have hopen : ∀ registrations : Registrations, Appends (do
      let session := ofRegistrations image graph registrations
      session.announce
      return session : Logged Session) := fun _ =>
    (appends_announce _).bind fun _ => appends_pure _
  change _ = Except.map _ (Registrations.symbolsOf parsers image options.hints.symbolSearch >>= _)
  rw [← hlocate]
  cases hanswer : (Registrations.locate parsers image graph options.hints).outcome.1 with
  | error fault => exact outcome_bind_error hanswer
  | ok registrations =>
      refine (outcome_bind_ok hanswer (hopen registrations)).trans ?_
      exact outcome_bind_ok (outcome_announce _) (appends_pure _)

theorem exists_of_ofGraph (h : (ofGraph parsers options image graph).outcome.1 = .ok session) :
    ∃ symbols registrations,
      Registrations.symbolsOf parsers image options.symbolSearch = .ok symbols ∧
        Registrations.find image.memory graph options.hints symbols = .ok registrations ∧
          session = ofRegistrations image graph registrations := by
  rw [outcome_ofGraph] at h
  obtain ⟨registrations, hfound, rfl⟩ := map_eq_ok h
  obtain ⟨symbols, hsymbols, hfind⟩ := bind_eq_ok hfound
  exact ⟨symbols, registrations, hsymbols, hfind, rfl⟩

/-- A session is what the stages of opening answer, one after the other. -/
theorem outcome_ofBytes_eq (parsers : Parsers) (options : Options)
    (imageData metadataData : ByteArray) :
    (ofBytes parsers options imageData metadataData).outcome.1 =
      (Image.load parsers imageData (options.dumpBase.map Int.ofNat)).outcome.1 >>= fun image =>
        (Metadata.read metadataData
            (options.versionOverride.map Release.value)).outcome.1 >>= fun metadata =>
          (TypeGraph.build metadata).outcome.1 >>= fun graph =>
            (ofGraph parsers options image graph).outcome.1 := by
  have hafterMetadata : ∀ (image : Image) (metadata : Metadata),
      Appends (TypeGraph.build metadata >>= ofGraph parsers options image) :=
    fun image metadata => (appends_build metadata).bind (appends_ofGraph parsers options image)
  have hafterImage : ∀ image : Image, Appends (Metadata.read metadataData
      (options.versionOverride.map Release.value) >>= fun metadata =>
        TypeGraph.build metadata >>= ofGraph parsers options image) :=
    fun image => (appends_readMetadata _ _).bind (hafterMetadata image)
  refine (outcome_bind fun image => (appends_write _).bind fun _ => hafterImage image).trans ?_
  refine congrArg _ (funext fun image => ?_)
  have hloaded : (Logged.info ("Loaded " ++ image.shown ++ ".")).outcome.1 = .ok () := rfl
  refine (outcome_bind_ok hloaded (hafterImage image)).trans ?_
  refine (outcome_bind (hafterMetadata image)).trans ?_
  refine congrArg _ (funext fun metadata => ?_)
  exact outcome_bind (appends_ofGraph parsers options image)

theorem outcome_ofBytes
    (himage : (Image.load parsers imageData (options.dumpBase.map Int.ofNat)).outcome.1 = .ok image)
    (hmetadata : (Metadata.read metadataData
      (options.versionOverride.map Release.value)).outcome.1 = .ok metadata)
    (hgraph : (TypeGraph.build metadata).outcome.1 = .ok graph) :
    (ofBytes parsers options imageData metadataData).outcome.1 =
      (ofGraph parsers options image graph).outcome.1 := by
  rw [outcome_ofBytes_eq, himage, ok_bind, hmetadata, ok_bind, hgraph, ok_bind]

theorem exists_of_ofBytes
    (h : (ofBytes parsers options imageData metadataData).outcome.1 = .ok session) :
    ∃ image graph registrations, session = ofRegistrations image graph registrations := by
  rw [outcome_ofBytes_eq] at h
  obtain ⟨image, -, h⟩ := bind_eq_ok h
  obtain ⟨metadata, -, h⟩ := bind_eq_ok h
  obtain ⟨graph, -, h⟩ := bind_eq_ok h
  obtain ⟨symbols, registrations, -, -, rfl⟩ := exists_of_ofGraph h
  exact ⟨image, graph, registrations, rfl⟩

/-- The registrations of an image can be searched for: the names of the symbols that are searched
are texts, and the address of the code registration is given or else all that a scan for it looks
for fits the width of pointers. -/
structure Searchable (parsers : Parsers) (options : Options) (image : Image)
    (graph : TypeGraph) : Prop where
  names : options.symbolSearch = true → image.isDumped = false → image.container = .machO →
    MachO.NamesText parsers image.data
  addresses : ∀ symbols,
    Registrations.symbolsOf parsers image options.symbolSearch = .ok symbols →
      Registrations.Given (Registrations.codeHints options.hints symbols) ∨
        Scan.CodeFits image.memory graph

theorem searchable_of_segmentsFit (hfit : Scan.SegmentsFit image.memory)
    (hnames : options.symbolSearch = true → image.isDumped = false → image.container = .machO →
      MachO.NamesText parsers image.data) : Searchable parsers options image graph :=
  ⟨hnames, fun _ _ => Or.inr (Scan.codeFits_of_segmentsFit hfit)⟩

theorem ofGraph_isOk_iff (hcount : Scan.Fits image.width graph.types.size) :
    (∃ session, (ofGraph parsers options image graph).outcome.1 = .ok session) ↔
      Searchable parsers options image graph := by
  rw [outcome_ofGraph, map_isOk_iff]
  constructor
  · rintro ⟨registrations, h⟩
    obtain ⟨symbols, hsymbols, hfind⟩ := bind_eq_ok h
    refine ⟨Registrations.symbolsOf_isOk_iff.mp ⟨symbols, hsymbols⟩, fun other hother => ?_⟩
    obtain rfl := Except.ok.inj (hsymbols.symm.trans hother)
    exact (Registrations.find_isOk_iff hcount).mp ⟨registrations, hfind⟩
  · rintro ⟨hnames, haddresses⟩
    obtain ⟨symbols, hsymbols⟩ := Registrations.symbolsOf_isOk_iff.mpr hnames
    obtain ⟨registrations, hfind⟩ :=
      (Registrations.find_isOk_iff hcount).mpr (haddresses symbols hsymbols)
    refine ⟨registrations, ?_⟩
    rw [hsymbols]
    exact hfind

theorem kind_of_ofGraph (hcount : Scan.Fits image.width graph.types.size)
    (h : (ofGraph parsers options image graph).outcome.1 = .error fault) :
    fault.kind = .outOfRange ∨ fault.kind = .notText := by
  rw [outcome_ofGraph] at h
  rcases bind_eq_error (map_eq_error h) with hsymbols | ⟨symbols, -, hfind⟩
  · exact Or.inr (Registrations.kind_of_symbolsOf hsymbols)
  · exact Or.inl (Registrations.kind_of_find hcount hfind)

/-- Once both files have been read and the graph has been linked, a session is opened exactly if the
registrations can be searched for. Otherwise the fault is a number that is out of range, or a name
that is no text. The issues of a session are what goes wrong while the registrations are discovered
and the graph is resolved. -/
theorem ofBytes_of_build (parsers : Parsers) (options : Options)
    (himage : (Image.load parsers imageData (options.dumpBase.map Int.ofNat)).outcome.1 = .ok image)
    (hmetadata : (Metadata.read metadataData
      (options.versionOverride.map Release.value)).outcome.1 = .ok metadata)
    (hgraph : (TypeGraph.build metadata).outcome.1 = .ok graph) :
    ((∃ session, (ofBytes parsers options imageData metadataData).outcome.1 = .ok session) ↔
        Searchable parsers options image graph) ∧
      (∀ fault, (ofBytes parsers options imageData metadataData).outcome.1 = .error fault →
        fault.kind = .outOfRange ∨ fault.kind = .notText) ∧
      ∀ session, (ofBytes parsers options imageData metadataData).outcome.1 = .ok session →
        session.image = image ∧ session.graph = session.resolver.resolve.attachTo graph ∧
          ∃ symbols, Registrations.symbolsOf parsers image options.symbolSearch = .ok symbols ∧
            ∀ fault, fault ∈ session.report.issues ↔
              Registrations.Failure image.memory graph options.hints symbols fault ∨
                session.resolver.Failure fault := by
  have hcount := TypeGraph.fits_types hmetadata hgraph image.width
  rw [outcome_ofBytes himage hmetadata hgraph]
  refine ⟨ofGraph_isOk_iff hcount, fun fault h => kind_of_ofGraph hcount h, ?_⟩
  intro session h
  obtain ⟨symbols, registrations, hsymbols, hfind, rfl⟩ := exists_of_ofGraph h
  refine ⟨rfl, graph_resolved _, symbols, hsymbols, fun fault => ?_⟩
  rw [← Registrations.mem_issues_find_iff hfind, ofRegistrations, report_resolved]
  exact Resolver.mem_issues_resolve_iff

section Small

/-- A file for a 32-bit machine with one segment, which holds the file as a whole. The name of a
module stands at its end. -/
def smallFile : ByteArray :=
  ⟨#[0x7F, 0x45, 0x4C, 0x46, 1, 1, 1, 0, 0, 0, 0, 0, 0, 0, 0, 0, 2, 0, 3, 0, 1, 0, 0, 0,
    0, 0, 0, 0, 52, 0, 0, 0, 0, 0, 0, 0, 0, 0, 0, 0, 52, 0, 32, 0, 1, 0, 40, 0, 0, 0, 0, 0,
    1, 0, 0, 0, 0, 0, 0, 0, 0, 0, 0, 0, 0, 0, 0, 0, 88, 0, 0, 0, 88, 0, 0, 0, 4, 0, 0, 0,
    4, 0, 0, 0, 0x6D, 0, 0, 0]⟩

/-- The file as a memory dump taken behind the addresses that a pointer can hold. -/
def smallImage : Image where
  data := smallFile
  container := .elf
  machine := .x86
  width := .bits32
  base := 0x100000000
  segments := [⟨"LOAD0", 0, 88, 0x100000000, 88, ⟨true, false, false⟩⟩]
  isDumped := true

theorem load_smallFile :
    (Image.load formatParsers smallFile (some 0x100000000)).outcome.1 = .ok smallImage := by
  have hdeclared : Elf.declaration formatParsers smallFile =
      .ok ⟨.x86, .bits32, 0, [⟨"LOAD0", 0, 88, 0, 88, ⟨true, false, false⟩⟩]⟩ := by cbv
  exact Image.load_eq_ok_iff.mpr ⟨.elf, _, by cbv, hdeclared, by cbv⟩

/-- A module with a type that has two methods and two fields. The first method is instantiated
once. -/
def smallContent : Content where
  records
    | .methods => [[-1, 0, 0, 0, -1, 1, 0, 0, 0, 0], [-1, 0, 0, 0, -1, 2, 0, 0, 0, 0]]
    | .fields => [[-1, 0, 0], [-1, 1, 0]]
    | .typeDefinitions =>
        [[2, -1, 0, -1, -1, -1, -1, 0, 0, 0, 0, 0, 0, 0, 0, 0, 2, 0, 2, 0, 0, 0, 0, 0, 0, 0]]
    | .images => [[0, 0, 0, 1, 0, 0, 0, 0, 0, 0]]
    | .typeReferences => [[0, 0, 8, 0], [0, 0, 18, 0]]
    | .genericInsts => [[1, 0]]
    | .genericArguments => [[0]]
    | .methodSpecs => [[0, -1, 0]]
    | _ => []
  bytes
    | .strings => [0x6D, 0, 0x54, 0]
    | _ => []

/-- The content as a blob. -/
def smallData : ByteArray := smallContent.blob .v27_0

def smallMetadata : Metadata := smallContent.metadata .v27_0

theorem read_smallData :
    (Metadata.read smallData (some Release.v27_0.value)).outcome.1 = .ok smallMetadata :=
  Content.read_blob ⟨by decide +kernel, by decide +kernel, by decide, by decide +kernel⟩

/-- The graph of the content. -/
def smallGraph : TypeGraph where
  release := .v27_0
  modules := #[⟨"m", 0, 1, 0⟩]
  types := #[⟨"T", "", some 0, none, none, [0, 1], [0, 1], [], [], [], [], 0, 0, 0⟩]
  methods := #[⟨"", 0, 0, [], [], 0, 0, 0, 1⟩, ⟨"", 0, 0, [], [], 0, 0, 0, 2⟩]
  fields := #[⟨"", some 0, 0, 0, 0, none⟩, ⟨"", some 0, 1, 0, 0, none⟩]
  properties := #[]
  genericParameters := #[]
  references := #[⟨8, .nothing, false, 0⟩, ⟨18, .definition 0, false, 0⟩]
  instantiations := #[⟨0, true, [], [0]⟩]
  methodSpecs := #[0]
  literals := #[]
  methodAddresses := #[]

theorem build_smallMetadata : (TypeGraph.build smallMetadata).outcome.1 = .ok smallGraph := by
  rw [smallMetadata, Content.outcome_build_metadata]
  cbv

/-- The options of a dump taken behind the addresses that a pointer can hold. -/
def smallOptions : Options where
  dumpBase := some 0x100000000
  versionOverride := some .v27_0

theorem ofBytes_smallFile : ∃ fault,
    (ofBytes formatParsers smallOptions smallFile smallData).outcome.1 = .error fault ∧
      (fault.kind = .outOfRange ∨ fault.kind = .notText) := by
  obtain ⟨hopened, hkind, -⟩ :=
    ofBytes_of_build formatParsers smallOptions load_smallFile read_smallData build_smallMetadata
  cases houtcome : (ofBytes formatParsers smallOptions smallFile smallData).outcome.1 with
  | error fault => exact ⟨fault, rfl, hkind fault houtcome⟩
  | ok session =>
      obtain ⟨-, haddresses⟩ := hopened.mp ⟨session, houtcome⟩
      rcases haddresses [] rfl with ⟨address, haddress, -⟩ | hfits
      · cases haddress with
        | tail _ haddress => cases haddress with
          | tail _ haddress => cases haddress
      · have hfound : smallImage.memory.findBytes (Scan.terminated "m") = [0x100000054] := by
          decide +kernel
        have htext : (0x100000054 : Int) ∈ Scan.texts smallImage.memory smallGraph := by
          change _ ∈ smallImage.memory.findBytes (Scan.terminated "m") ++ []
          rw [hfound]
          exact List.mem_singleton_self _
        obtain ⟨⟨-, hlt⟩, -⟩ := hfits.texts _ htext
        exact absurd hlt (by decide)

end Small

end Session

end TypeAtlas
