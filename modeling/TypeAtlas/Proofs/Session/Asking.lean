import TypeAtlas.Proofs.Registration.Stored
/-!
Asking a session: the order of the methods that a session keeps is never out of date, and resolving
the graph again finds what has been found before. So no answer depends on what was asked before.
-/

namespace TypeAtlas.Session

open Logged

variable {parsers : Parsers} {session : Session}

/-- What a session holds is what its resolver finds, and the order of the methods that it keeps, if
any, is that of their addresses. -/
structure Current (session : Session) : Prop where
  attached : session.resolver.resolve.attachTo session.graph = session.graph
  report : session.resolver.resolve.report = session.report
  index : ∀ sorted, session.index = some sorted → sorted = session.sortedMethods

theorem current_resolved (session : Session) : session.resolved.Current where
  attached := by
    rw [graph_resolved, Resolution.attachTo_attachTo]
  report := (report_resolved session).symm
  index := nofun

/-- The answer to a question that nothing has been asked before. -/
def answer (session : Session) (query : Query) : Answer :=
  match query with
  | .methodAddress method => .number (session.methodAddress? method)
  | .fieldOffset field => .number (session.fieldOffset? field)
  | .genericAddress instantiation => .number (session.genericAddress? instantiation)
  | .methodAt address =>
      .index (methodIn? session.resolver.memory.space session.sortedMethods address)
  | .lookup namespaceName name => .index (session.graph.lookup? namespaceName name)
  | .typeName room reference =>
      match session.typeName? room reference with
      | .ok name => .text name
      | .error fault => .fault fault
  | .resolve => .report session.report

/-- A session with another order of the methods kept. -/
def keeping (session : Session) (index : Option (List (Int × Nat))) : Session :=
  { session with index }

@[simp]
theorem answer_keeping (index : Option (List (Int × Nat))) (query : Query) :
    (session.keeping index).answer query = session.answer query := by
  cases query <;> rfl

theorem Current.sorted (hcurrent : session.Current) :
    session.index.getD session.sortedMethods = session.sortedMethods := by
  cases hindex : session.index with
  | none => rfl
  | some sorted => exact hcurrent.index sorted hindex

theorem Current.keeping_sorted (hcurrent : session.Current) :
    (session.keeping (some session.sortedMethods)).Current :=
  ⟨hcurrent.attached, hcurrent.report, fun _ hsorted => (Option.some.inj hsorted).symm⟩

theorem Current.keeping_none (hcurrent : session.Current) : (session.keeping none).Current :=
  ⟨hcurrent.attached, hcurrent.report, nofun⟩

/-- Resolving the graph again attaches what is attached already. -/
theorem Current.resolved_eq (hcurrent : session.Current) :
    session.resolved = session.keeping none := by
  have hresolver : session.resolver.attach session.resolver.resolve = session.resolver :=
    congrArg (fun graph => { session.resolver with graph }) hcurrent.attached
  unfold resolved keeping
  dsimp only
  rw [hresolver, hcurrent.report]

theorem appends_ask (query : Query) : Appends (session.ask query) := by
  cases query with
  | resolve =>
      exact ((appends_announce _).bind fun _ => appends_pure _).bind fun _ => appends_pure _
  | typeName room reference =>
      unfold ask
      dsimp only
      split <;> exact appends_pure _
  | _ => exact appends_pure _

theorem appends_askAll (queries : List Query) : Appends (session.askAll queries) := by
  induction queries generalizing session with
  | nil => exact appends_pure _
  | cons query queries ih =>
      exact (appends_ask query).bind fun _ => ih.bind fun _ => appends_pure _

/-- A question is answered as if nothing had been asked before, and it changes nothing but the order
of the methods that is kept. -/
theorem Current.outcome_ask (hcurrent : session.Current) (query : Query) :
    ∃ index, (session.ask query).outcome.1 = .ok (session.answer query, session.keeping index) ∧
      (session.keeping index).Current := by
  cases query with
  | methodAt address =>
      refine ⟨some session.sortedMethods, ?_, hcurrent.keeping_sorted⟩
      change Except.ok (Answer.index (session.methodAt address).1, (session.methodAt address).2) = _
      rw [methodAt, hcurrent.sorted]
      rfl
  | resolve =>
      refine ⟨none, ?_, hcurrent.keeping_none⟩
      rw [← hcurrent.resolved_eq]
      have hanswer : session.resolved.report = session.report := hcurrent.report
      refine (outcome_bind_ok (outcome_resolve session) (appends_pure (_, _))).trans ?_
      rw [hanswer]
      rfl
  | typeName room reference =>
      refine ⟨session.index, ?_, hcurrent⟩
      unfold ask answer
      dsimp only
      cases session.typeName? room reference <;> rfl
  | methodAddress | fieldOffset | genericAddress | lookup => exact ⟨session.index, rfl, hcurrent⟩

theorem Current.outcome_askAll (hcurrent : session.Current) (queries : List Query) :
    ∃ index, (session.askAll queries).outcome.1 =
        .ok (queries.map session.answer, session.keeping index) ∧
      (session.keeping index).Current := by
  induction queries generalizing session with
  | nil => exact ⟨session.index, rfl, hcurrent⟩
  | cons query queries ih =>
      obtain ⟨index, hask, hafter⟩ := hcurrent.outcome_ask query
      obtain ⟨last, hrest, hlast⟩ := ih hafter
      refine ⟨last, ?_, hlast⟩
      have hanswers : (session.keeping index).answer = session.answer :=
        funext fun query => answer_keeping index query
      rw [hanswers] at hrest
      have hnext := (@appends_askAll (session.keeping index) queries).bind
        fun rest => appends_pure (session.answer query :: rest.1, rest.2)
      exact (outcome_bind_ok hask hnext).trans (outcome_bind_ok hrest (appends_pure _))

/-- Whatever has been asked of an opened session, each question is answered as if it were the first
one, and a question that follows is so, too. Resolving the graph again attaches the same addresses
and offsets and gives the same report. -/
theorem askAll_ofBytes {options : Options} {imageData metadataData : ByteArray}
    (h : (ofBytes parsers options imageData metadataData).outcome.1 = .ok session)
    (queries : List Query) :
    ∃ answers last, (session.askAll queries).outcome.1 = .ok (answers, last) ∧
      List.Forall₂
        (fun query answer => ∃ after, (session.ask query).outcome.1 = .ok (answer, after))
        queries answers ∧
      last.graph = session.graph ∧ last.report = session.report ∧
      ∀ query, ∃ answer after first, (last.ask query).outcome.1 = .ok (answer, after) ∧
        (session.ask query).outcome.1 = .ok (answer, first) ∧
          after.graph = session.graph ∧ after.report = session.report ∧
            (query = .resolve → answer = .report session.report) := by
  obtain ⟨image, graph, registrations, hsession⟩ := exists_of_ofBytes h
  have hcurrent : session.Current := hsession ▸ current_resolved _
  obtain ⟨index, hall, hlast⟩ := hcurrent.outcome_askAll queries
  refine ⟨queries.map session.answer, session.keeping index, hall, ?_, rfl, rfl, fun query => ?_⟩
  · rw [List.forall₂_map_right_iff, List.forall₂_same]
    intro query _
    obtain ⟨first, hask, -⟩ := hcurrent.outcome_ask query
    exact ⟨_, hask⟩
  · obtain ⟨first, hfirst, -⟩ := hcurrent.outcome_ask query
    obtain ⟨after, hafter, -⟩ := hlast.outcome_ask query
    rw [answer_keeping] at hafter
    refine ⟨session.answer query, _, _, hafter, hfirst, rfl, rfl, ?_⟩
    rintro rfl
    rfl

section Stored

open Registrations

/-- The options of a file whose registrations are given. -/
def storedOptions : Options where
  versionOverride := some .v27_0
  codeRegistration := some 0x400054
  metadataRegistration := some 0x4000AC

def storedResolver : Resolver where
  machine := .x86
  memory := storedImage.memory
  graph := smallGraph
  registrations := { code := some storedCode, metadata := some storedMetadata, issues := [] }

/-- A session whose graph has something attached to each of its entries. -/
def storedSession : Session :=
  resolved { image := storedImage, resolver := storedResolver, report := {} }

set_option maxRecDepth 8000 in
theorem ofBytes_storedOptions :
    (ofBytes formatParsers storedOptions storedFile smallData).outcome.1 = .ok storedSession := by
  have himage : (Image.load formatParsers storedFile
      (storedOptions.dumpBase.map Int.ofNat)).outcome.1 = .ok storedImage := load_storedFile
  have hmetadata : (Metadata.read smallData
      (storedOptions.versionOverride.map Release.value)).outcome.1 = .ok smallMetadata :=
    read_smallData
  have hsymbols : symbolsOf formatParsers storedImage storedOptions.symbolSearch = .ok [] := by
    cbv
  have hfind := @find_of_stores storedImage smallGraph storedOptions.hints storedCode storedMetadata
    (Memory.laid_of_load load_storedFile) storesCode_storedImage storesMetadata_storedImage rfl
    (by decide) rfl (by decide) []
  rw [outcome_ofBytes himage hmetadata build_smallMetadata, outcome_ofGraph, hsymbols, ok_bind,
    hfind]
  rfl

theorem allTypeOffsets_storedResolver :
    storedResolver.allTypeOffsets = [.ok [(0, 8), (1, -4)]] := by
  have hstores : storedImage.StoresInts 0x40009C [8, -4] := by decide +kernel
  have hread : storedImage.memory.readInts 0x40009C 2 "field_offsets" = .ok [8, -4] :=
    Image.readInts_of_stores (Memory.laid_of_load load_storedFile) _ hstores
  have hreads : Resolver.ReadsFrom #[0x40009C, 0] 0 smallGraph.types[0] 0x40009C :=
    ⟨rfl, by decide, rfl, by decide⟩
  change [storedResolver.typeOffsets #[0x40009C, 0] 0 smallGraph.types[0]] = _
  rw [Resolver.typeOffsets_of_readInts hreads hread]
  rfl

theorem attached_storedSession : storedSession.graph.attached =
    { methods := #[some 0x400010, some 0x400020], instantiations := #[some 0x400030]
      fields := #[some 8, some (-4)] } := by
  have hfirst : storedResolver.resolve.methodAddress? 0 = some 0x400010 := by
    rw [Resolver.methodAddress?_eq_or Nat.zero_lt_two]
    cbv
  have hsecond : storedResolver.resolve.methodAddress? 1 = some 0x400020 := by
    rw [Resolver.methodAddress?_eq_or Nat.one_lt_two]
    cbv
  have hgeneric : storedResolver.resolve.genericAddress? 0 = some 0x400030 := by
    change ((Resolver.tableOf 1 storedResolver.generics.1)[0]?).join = _
    cbv
  have hoffset : ∀ field < 2, storedResolver.resolve.fieldOffset? field = [8, -4][field]? := by
    change ∀ field < 2, ((Resolver.tableOf 2
      (storedResolver.allTypeOffsets.filterMap Except.toOption).flatten)[field]?).join = _
    rw [allTypeOffsets_storedResolver]
    decide +kernel
  change Attachments.mk ((Array.range 2).map storedResolver.resolve.methodAddress?)
    ((Array.range 1).map storedResolver.resolve.genericAddress?)
    ((Array.range 2).map storedResolver.resolve.fieldOffset?) = _
  simp [← List.toArray_range, List.range_succ, hfirst, hsecond, hgeneric, hoffset]

theorem sortedMethods_storedSession :
    storedSession.sortedMethods = [(0x400010, 0), (0x400020, 1)] := by
  change ((List.range 2).filterMap fun method =>
    ((storedSession.graph.attached.methods[method]?).join).map
      fun address => (address, method)).mergeSort isBefore = _
  rw [attached_storedSession]
  cbv

def storedQueries : List Query :=
  [.methodAt 0x400018, .resolve, .methodAddress 1, .methodAt 0x400018, .genericAddress 0,
    .resolve, .fieldOffset 1]

theorem askAll_storedFile : ∃ last,
    (ofBytes formatParsers storedOptions storedFile smallData).outcome.1 = .ok storedSession ∧
      (storedSession.askAll storedQueries).outcome.1 = .ok
        ([.index (some 0), .report storedSession.report, .number (some 0x400020),
          .index (some 0), .number (some 0x400030), .report storedSession.report,
          .number (some (-4))], last) ∧
      last.graph.attached =
        { methods := #[some 0x400010, some 0x400020], instantiations := #[some 0x400030]
          fields := #[some 8, some (-4)] } ∧
      last.report = storedSession.report := by
  obtain ⟨answers, last, hall, -, hgraph, hreport, -⟩ :=
    askAll_ofBytes ofBytes_storedOptions storedQueries
  obtain ⟨index, hask, -⟩ := (current_resolved _).outcome_askAll storedQueries
  obtain ⟨rfl, rfl⟩ := Prod.mk.inj (Except.ok.inj (hall.symm.trans hask))
  have hmethod : storedSession.answer (.methodAt 0x400018) = .index (some 0) := by
    change Answer.index (methodIn? storedImage.memory.space storedSession.sortedMethods _) = _
    rw [sortedMethods_storedSession]
    cbv
  have haddress : storedSession.answer (.methodAddress 1) = .number (some 0x400020) := by
    change Answer.number ((storedSession.graph.attached.methods[1]?).join) = _
    rw [attached_storedSession]
    rfl
  have hgeneric : storedSession.answer (.genericAddress 0) = .number (some 0x400030) := by
    change Answer.number ((storedSession.graph.attached.instantiations[0]?).join) = _
    rw [attached_storedSession]
    rfl
  have hoffset : storedSession.answer (.fieldOffset 1) = .number (some (-4)) := by
    change Answer.number ((storedSession.graph.attached.fields[1]?).join) = _
    rw [attached_storedSession]
    rfl
  have hanswers : storedQueries.map storedSession.answer =
      [.index (some 0), .report storedSession.report, .number (some 0x400020), .index (some 0),
        .number (some 0x400030), .report storedSession.report, .number (some (-4))] := by
    rw [storedQueries]
    simp only [List.map_cons, List.map_nil, hmethod, haddress, hgeneric, hoffset]
    rfl
  refine ⟨_, ofBytes_storedOptions, ?_, hgraph ▸ attached_storedSession, hreport⟩
  rw [← hanswers]
  exact hall

end Stored

end TypeAtlas.Session
