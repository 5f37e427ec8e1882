import TypeAtlas.Image.Load
import TypeAtlas.Registration.Scan

namespace TypeAtlas

/-- The registration structures that could be read, and the issues with those that could not. -/
structure Registrations where
  code : Option CodeRegistration
  metadata : Option MetadataRegistration
  issues : List Fault
  deriving DecidableEq

/-- Where to look for the registration structures first. -/
structure Hints where
  code : Option Int := none
  metadata : Option Int := none
  /-- Look up exported symbols. -/
  symbolSearch : Bool := true

namespace Registrations

def codeSymbol : String := "g_CodeRegistration"

def metadataSymbol : String := "g_MetadataRegistration"

/-- The addresses of the two structures among some symbols. -/
def symbolsAmong (symbols : List Symbol) : List Symbol :=
  [codeSymbol, metadataSymbol].filterMap fun name =>
    (Symbol.lookup? symbols name).map fun address => ⟨name, address⟩

/-- The symbols of the two structures. The bytes of a memory dump are not searched. -/
def exported (parsers : Parsers) (image : Image) (symbolSearch : Bool) :
    Logged (List Symbol) :=
  if !symbolSearch || image.isDumped then return []
  else do
    match ← Logged.ofExcept (image.symbols parsers) with
    | some symbols => return symbolsAmong symbols
    | none => do
        Logged.warn "Failed to read symbols"
        return []

/-- The first address that is given and not zero, or else the one that a scan finds. -/
def firstAddress (given : List (Option Int)) (scan : Unit → Except Fault (Option Int)) :
    Except Fault (Option Int) :=
  match (given.filterMap id).find? (· != 0) with
  | some address => .ok (some address)
  | none => scan ()

def missing (message table : String) : Fault :=
  { kind := .registrationNotFound, message, table := some table }

def unreadable (what table : String) (address : Int) (fault : Fault) : Fault :=
  { kind := .registrationNotFound
    message := "Unreadable " ++ what ++ ": " ++ fault.message
    table := some table, offset := some address }

/-- The code registration at an address, if there is one, and the issues with it. -/
def readCode (memory : Memory) (release : Release) (address : Option Int) :
    Option CodeRegistration × List Fault :=
  match address with
  | none => (none, [missing "Code registration not found" "code_registration"])
  | some address =>
      match CodeRegistration.read memory release address with
      | (.ok code, issues) => (some code, issues)
      | (.error fault, issues) =>
          (none, issues ++ [unreadable "code registration" "code_registration" address fault])

/-- The metadata registration at an address, if there is one, and the issues with it. -/
def readMetadata (memory : Memory) (release : Release) (address : Option Int) :
    Option MetadataRegistration × List Fault :=
  match address with
  | none => (none, [missing "Metadata registration not found" "metadata_registration"])
  | some address =>
      match MetadataRegistration.read memory release address with
      | .ok metadata => (some metadata, [])
      | .error fault =>
          (none, [unreadable "metadata registration" "metadata_registration" address fault])

/-- Locates both structures without writing to the log. -/
def find (memory : Memory) (graph : TypeGraph) (hints : Hints) (symbols : List Symbol) :
    Except Fault Registrations := do
  let codeAddress ←
    firstAddress [hints.code, Symbol.lookup? symbols codeSymbol] fun _ => Scan.code memory graph
  let (code, codeIssues) := readCode memory graph.release codeAddress
  let metadataAddress ←
    firstAddress [hints.metadata, Symbol.lookup? symbols metadataSymbol] fun _ =>
      Scan.metadata memory graph
  let (metadata, metadataIssues) := readMetadata memory graph.release metadataAddress
  return { code, metadata, issues := codeIssues ++ metadataIssues }

/-- The lines that tell where the structures were found. -/
def announcements (registrations : Registrations) : List String :=
  (registrations.code.map fun code =>
    "Code registration at " ++ Hexadecimal.ofInt code.address ++ ": " ++
      toString code.modules.length ++ " modules.").toList ++
  (registrations.metadata.map fun metadata =>
    "Metadata registration at " ++ Hexadecimal.ofInt metadata.address ++ ".").toList

/-- Locates both structures. -/
def locate (parsers : Parsers) (image : Image) (graph : TypeGraph) (hints : Hints) :
    Logged Registrations := do
  let symbols ← exported parsers image hints.symbolSearch
  let registrations ← Logged.ofExcept (find image.memory graph hints symbols)
  for line in registrations.announcements do
    Logged.info line
  return registrations

end Registrations

end TypeAtlas
