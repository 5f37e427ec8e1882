import TypeAtlas.Resolution.Resolver

namespace TypeAtlas

/-- The outcome of a resolution. -/
structure Report where
  issues : List Fault := []
  /-- Methods with an address of their own. -/
  directMethods : Nat := 0
  /-- Methods with an address from their module. -/
  heuristicMethods : Nat := 0
  genericMethods : Nat := 0
  fieldOffsets : Nat := 0
  deriving DecidableEq

namespace Report

/-- The number of methods with an address. -/
def resolvedMethods (report : Report) : Nat :=
  report.directMethods + report.heuristicMethods

/-- Whether nothing went wrong. -/
def isOk (report : Report) : Bool := report.issues.isEmpty

/-- The issues of a kind, those of its members included. -/
def issuesOf (report : Report) (kind : Fault.Kind) : List Fault :=
  report.issues.filter fun issue => issue.kind.isA kind

/-- The line that sums up a report on a number of methods. -/
def summary (report : Report) (methods : Nat) : String :=
  "Resolved " ++ toString report.resolvedMethods ++ "/" ++ toString methods ++ " methods (" ++
    toString report.directMethods ++ " direct), " ++ toString report.genericMethods ++
    " generic methods, " ++ toString report.fieldOffsets ++ " field offsets."

/-- The lines that tell about a report on a number of methods: one for each issue, then its
summary. -/
def announcements (report : Report) (methods : Nat) : List Log.Line :=
  report.issues.map (fun issue => ⟨.warning, issue.kind.name ++ ": " ++ issue.text⟩) ++
    [⟨.info, report.summary methods⟩]

end Report

/-- What could be resolved. Each table has a row for each entry of the graph. -/
structure Resolution where
  /-- The addresses of methods with a valid entry of their own. -/
  direct : Array (Option Int)
  /-- The addresses of methods from the pointers of their modules. -/
  heuristic : Array (Option Int)
  generic : Array (Option Int)
  offsets : Array (Option Int)
  report : Report
  deriving DecidableEq

namespace Resolution

/-- The address of a method. An entry of its own comes first. -/
def methodAddress? (resolution : Resolution) (method : Nat) : Option Int :=
  match (resolution.direct[method]?).join with
  | some address => some address
  | none => (resolution.heuristic[method]?).join

/-- The address of an instantiation. -/
def genericAddress? (resolution : Resolution) (instantiation : Nat) : Option Int :=
  (resolution.generic[instantiation]?).join

/-- The offset of a field. -/
def fieldOffset? (resolution : Resolution) (field : Nat) : Option Int :=
  (resolution.offsets[field]?).join

/-- A graph with what has been resolved attached to its entries. -/
def attachTo (resolution : Resolution) (graph : TypeGraph) : TypeGraph :=
  { graph with
    attached :=
      { methods := (Array.range graph.methods.size).map resolution.methodAddress?
        instantiations := (Array.range graph.instantiations.size).map resolution.genericAddress?
        fields := (Array.range graph.fields.size).map resolution.fieldOffset? } }

end Resolution

namespace Resolver

/-- Resolves a graph: its own entries first, then the modules, the generic methods and the field
offsets. -/
def resolve (resolver : Resolver) : Resolution :=
  let graph := resolver.graph
  let direct := resolver.directOutcomes
  let modules := resolver.allModuleOutcomes direct
  let heuristic := modules.flatMap moduleAddresses
  let (generic, genericIssues) := resolver.generics
  let results := resolver.allTypeOffsets
  let offsets := (results.filterMap Except.toOption).flatten
  { direct := direct.map Outcome.address?
    heuristic := tableOf graph.methods.size heuristic
    generic := tableOf graph.instantiations.size generic
    offsets := tableOf graph.fields.size offsets
    report :=
      { issues :=
          resolver.registrations.issues ++ direct.toList.filterMap Outcome.issue? ++
            modules.flatMap moduleIssues ++ genericIssues ++
            results.filterMap fun result =>
              match result with
              | .error fault => some fault
              | .ok _ => none
        directMethods := direct.countP fun outcome => outcome.address?.isSome
        heuristicMethods := rowCount heuristic
        genericMethods := rowCount generic
        fieldOffsets := rowCount offsets } }

/-- A resolver with what has been resolved attached to its graph. -/
def attach (resolver : Resolver) (resolution : Resolution) : Resolver :=
  { resolver with graph := resolution.attachTo resolver.graph }

end Resolver

end TypeAtlas
