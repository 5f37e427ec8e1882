import TypeAtlas.Proofs.Outcome
import TypeAtlas.Session

namespace TypeAtlas

open Logged

section Appending

theorem appends_chooseRelease (data : ByteArray) (version : Int) (override : Option Double) :
    Appends (Header.chooseRelease data version override) := by
  unfold Header.chooseRelease Header.overriddenRelease Header.detectRelease
  split
  · split
    · exact appends_throw _
    · split
      · exact (appends_write _).bind fun _ => appends_pure _
      · exact appends_pure _
  · split
    · exact appends_throw _
    · exact appends_pure _
    · dsimp only
      split
      · exact (appends_write _).bind fun _ => appends_pure _
      · exact appends_pure _

theorem appends_readHeader (data : ByteArray) (override : Option Double) :
    Appends (Header.read data override) := by
  unfold Header.read
  split
  · exact appends_throw _
  · dsimp only
    split
    · exact appends_throw _
    · exact (appends_chooseRelease _ _ _).bind fun _ => appends_ofExcept _

theorem appends_readMetadata (data : ByteArray) (override : Option Double) :
    Appends (Metadata.read data override) :=
  (appends_readHeader data override).bind fun _ => (appends_ofExcept _).bind fun _ =>
    (appends_write _).bind fun _ => appends_pure _

theorem appends_build (metadata : Metadata) : Appends (TypeGraph.build metadata) :=
  (appends_ofExcept _).bind fun _ => (appends_write _).bind fun _ => appends_pure _

theorem appends_exported (parsers : Parsers) (image : Image) (symbolSearch : Bool) :
    Appends (Registrations.exported parsers image symbolSearch) := by
  unfold Registrations.exported
  split
  · exact appends_pure _
  · refine (appends_ofExcept _).bind fun symbols => ?_
    cases symbols with
    | some symbols => exact appends_pure _
    | none => exact (appends_write _).bind fun _ => appends_pure _

theorem appends_locate (parsers : Parsers) (image : Image) (graph : TypeGraph) (hints : Hints) :
    Appends (Registrations.locate parsers image graph hints) :=
  (appends_exported _ _ _).bind fun _ => (appends_ofExcept _).bind fun _ =>
    (appends_forIn _ fun _ => appends_write _).bind fun _ => appends_pure _

theorem appends_announce (session : Session) : Appends session.announce :=
  (appends_forIn _ appends_write).bind fun _ => appends_pure _

theorem appends_ofGraph (parsers : Parsers) (options : Options) (image : Image)
    (graph : TypeGraph) : Appends (Session.ofGraph parsers options image graph) :=
  (appends_locate _ _ _ _).bind fun _ => (appends_announce _).bind fun _ => appends_pure _

end Appending

section Answers

/-- The symbols that are searched for in an image. -/
def Registrations.symbolsOf (parsers : Parsers) (image : Image) (symbolSearch : Bool) :
    Except Fault (List Symbol) :=
  if !symbolSearch || image.isDumped then .ok []
  else (image.symbols parsers).map fun found => (found.map symbolsAmong).getD []

theorem outcome_exported (parsers : Parsers) (image : Image) (symbolSearch : Bool) :
    (Registrations.exported parsers image symbolSearch).outcome.1 =
      Registrations.symbolsOf parsers image symbolSearch := by
  unfold Registrations.exported Registrations.symbolsOf
  split
  · rfl
  · cases hsymbols : image.symbols parsers with
    | error fault => rfl
    | ok found => cases found <;> rfl

theorem outcome_locate (parsers : Parsers) (image : Image) (graph : TypeGraph) (hints : Hints) :
    (Registrations.locate parsers image graph hints).outcome.1 =
      Registrations.symbolsOf parsers image hints.symbolSearch >>=
        Registrations.find image.memory graph hints := by
  have hloop : ∀ registrations : Registrations, Appends (do
      for line in registrations.announcements do
        info line
      return registrations : Logged Registrations) :=
    fun registrations => (appends_forIn _ fun _ => appends_write _).bind fun _ => appends_pure _
  have hexported := outcome_exported parsers image hints.symbolSearch
  unfold Registrations.locate
  cases hsymbols : Registrations.symbolsOf parsers image hints.symbolSearch with
  | error fault =>
      rw [hsymbols] at hexported
      exact outcome_bind_error hexported
  | ok symbols =>
      rw [hsymbols] at hexported
      refine (outcome_bind_ok hexported ((appends_ofExcept _).bind hloop)).trans ?_
      change _ = Registrations.find image.memory graph hints symbols
      cases hfind : Registrations.find image.memory graph hints symbols with
      | error fault => rfl
      | ok registrations =>
          have hwritten : (forIn registrations.announcements PUnit.unit fun line _ => do
              info line
              pure (ForInStep.yield PUnit.unit) : Logged PUnit).outcome.1 = .ok ⟨⟩ :=
            outcome_forIn _ (fun _ => appends_write _) fun _ => rfl
          have hanswer : (Logged.ofExcept (.ok registrations)).outcome.1 =
              .ok registrations := rfl
          refine (outcome_bind_ok hanswer (hloop registrations)).trans ?_
          exact outcome_bind_ok hwritten (appends_pure _)

theorem outcome_announce (session : Session) : session.announce.outcome.1 = .ok () := by
  have hwritten : (forIn (session.report.announcements session.graph.methods.size) PUnit.unit
      fun line _ => do
        write line
        pure (ForInStep.yield PUnit.unit) : Logged PUnit).outcome.1 = .ok ⟨⟩ :=
    outcome_forIn _ appends_write fun _ => rfl
  exact outcome_bind_ok hwritten (appends_pure _)

theorem outcome_resolve (session : Session) : session.resolve.outcome.1 = .ok session.resolved :=
  outcome_bind_ok (outcome_announce session.resolved) (appends_pure _)

end Answers

end TypeAtlas
