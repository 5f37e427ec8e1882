import TypeAtlas.Graph.Build
import TypeAtlas.Image.Load
import TypeAtlas.Options
import TypeAtlas.Resolution.Resolve
/-!
Sessions: the resolved graph of an image and a metadata blob, and the questions it answers. The
methods in the order of their addresses are kept once they have been asked for, until the graph is
resolved again.
-/

namespace TypeAtlas

/-- Where the options tell to look for the registrations first. -/
def Options.hints (options : Options) : Hints where
  code := options.codeRegistration.map Int.ofNat
  metadata := options.metadataRegistration.map Int.ofNat
  symbolSearch := options.symbolSearch

/-- An opened pair of an image and a metadata blob. -/
structure Session where
  image : Image
  /-- What resolves the graph, to which it attaches what it finds. -/
  resolver : Resolver
  report : Report
  /-- The addresses of methods in ascending order, once they have been asked for. -/
  index : Option (List (Int × Nat)) := none

namespace Session

/-- The graph of a session, with what has been attached to it. -/
def graph (session : Session) : TypeGraph := session.resolver.graph

/-- What a table says of an entry with some number; nothing is known of unknown entries. -/
def entry? (table : Nat → Option Int) (number : Int) : Option Int :=
  match number with
  | .ofNat n => table n
  | .negSucc _ => none

/-- The address that is attached to a method. -/
def methodAddress? (session : Session) (method : Int) : Option Int :=
  entry? session.graph.methodAddress? method

/-- The offset that is attached to a field. -/
def fieldOffset? (session : Session) (field : Int) : Option Int :=
  entry? session.graph.fieldOffset? field

/-- The address that is attached to an instantiation. -/
def genericAddress? (session : Session) (instantiation : Int) : Option Int :=
  entry? session.graph.genericAddress? instantiation

/-- The name of a reference, written with room for some nested calls. -/
def typeName? (session : Session) (room : Nat) (reference : Int) : Except Fault (Option String) :=
  match reference with
  | .ofNat n =>
      if n < session.graph.references.size then (session.graph.typeName room n).map some
      else .ok none
  | .negSucc _ => .ok none

/-- The order of the methods by address, then by number. -/
def isBefore (a b : Int × Nat) : Bool :=
  decide (a.1 < b.1) || (a.1 == b.1 && decide (a.2 ≤ b.2))

/-- The methods with an address, in the order of their addresses. -/
def sortedMethods (session : Session) : List (Int × Nat) :=
  let resolved := (List.range session.graph.methods.size).filterMap fun method =>
    (session.graph.methodAddress? method).map fun address => (address, method)
  resolved.mergeSort isBefore

/-- The last of some methods in the order of their addresses that starts at or below an address, in
the same segment. -/
def methodIn? (space : AddressSpace) (sorted : List (Int × Nat)) (address : Int) : Option Nat := do
  let (start, method) ← (sorted.takeWhile fun entry => decide (entry.1 ≤ address)).getLast?
  let segment ← space.segmentAt? address
  if segment.contains start then some method else none

/-- The method that an address belongs to, and the session that keeps the order of the methods. -/
def methodAt (session : Session) (address : Int) : Option Nat × Session :=
  let sorted := session.index.getD session.sortedMethods
  (methodIn? session.resolver.memory.space sorted address, { session with index := some sorted })

/-- A session after its graph has been resolved, which replaces what has been attached to it. -/
def resolved (session : Session) : Session :=
  let resolution := session.resolver.resolve
  { session with
    resolver := session.resolver.attach resolution, report := resolution.report, index := none }

/-- Tells about the report of a session. -/
def announce (session : Session) : Logged Unit := do
  for line in session.report.announcements session.graph.methods.size do
    Logged.write line

/-- Resolves the graph again. -/
def resolve (session : Session) : Logged Session := do
  let after := session.resolved
  after.announce
  return after

/-- What can be asked of a session. -/
inductive Query
  | methodAddress (method : Int)
  | fieldOffset (field : Int)
  | genericAddress (instantiation : Int)
  | methodAt (address : Int)
  | lookup (namespaceName name : String)
  | typeName (room : Nat) (reference : Int)
  | resolve

/-- An answer to a question. -/
inductive Answer
  | number (value : Option Int)
  | index (value : Option Nat)
  | text (value : Option String)
  | fault (fault : Fault)
  | report (value : Report)
  deriving DecidableEq

/-- The answer to a question, and the session after it. -/
def ask (session : Session) (query : Query) : Logged (Answer × Session) :=
  match query with
  | .methodAddress method => return (.number (session.methodAddress? method), session)
  | .fieldOffset field => return (.number (session.fieldOffset? field), session)
  | .genericAddress instantiation =>
      return (.number (session.genericAddress? instantiation), session)
  | .methodAt address =>
      let (method, after) := session.methodAt address
      return (.index method, after)
  | .lookup namespaceName name =>
      return (.index (session.graph.lookup? namespaceName name), session)
  | .typeName room reference =>
      match session.typeName? room reference with
      | .ok name => return (.text name, session)
      | .error fault => return (.fault fault, session)
  | .resolve => do
      let after ← session.resolve
      return (.report after.report, after)

/-- The answers to some questions, one after the other, and the session after them. -/
def askAll (session : Session) : List Query → Logged (List Answer × Session)
  | [] => return ([], session)
  | query :: queries => do
      let (answer, after) ← session.ask query
      let (answers, last) ← after.askAll queries
      return (answer :: answers, last)

/-- The session of an image whose registrations have been located. -/
def ofRegistrations (image : Image) (graph : TypeGraph) (registrations : Registrations) :
    Session :=
  resolved
    { image, report := {}
      resolver := { machine := image.machine, memory := image.memory, graph, registrations } }

/-- Opens an image with the graph of a metadata blob: locates the registrations and resolves the
graph. -/
def ofGraph (parsers : Parsers) (options : Options) (image : Image) (graph : TypeGraph) :
    Logged Session := do
  let registrations ← Registrations.locate parsers image graph options.hints
  let session := ofRegistrations image graph registrations
  session.announce
  return session

/-- Opens an image and a metadata blob: reads both, links the graph and opens the image with it. -/
def ofBytes (parsers : Parsers) (options : Options) (imageData metadataData : ByteArray) :
    Logged Session := do
  let image ← Image.load parsers imageData (options.dumpBase.map Int.ofNat)
  Logged.info ("Loaded " ++ image.shown ++ ".")
  let metadata ← Metadata.read metadataData (options.versionOverride.map Release.value)
  let graph ← TypeGraph.build metadata
  ofGraph parsers options image graph

end Session

end TypeAtlas
