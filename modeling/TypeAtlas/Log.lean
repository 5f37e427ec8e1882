import TypeAtlas.Fault

namespace TypeAtlas

/-- How serious a log line is. -/
inductive Log.Level
  | info
  | warning
  deriving DecidableEq

/-- A line of the log. -/
structure Log.Line where
  level : Log.Level
  text : String
  deriving DecidableEq

/-- The lines of a log in the order in which they were written. -/
abbrev Log := Array Log.Line

def Log.Line.render (line : Log.Line) : String :=
  match line.level with
  | .info => "INFO: " ++ line.text
  | .warning => "WARNING: " ++ line.text

def Log.rootChannel : String := "ilgraph"

/-- The channel of a component. Every channel lies below the root channel; no name, or an empty
one, means the root channel itself. -/
def Log.channel (name : Option String) : String :=
  match name with
  | none => rootChannel
  | some name =>
      if name = "" ∨ name = rootChannel then rootChannel
      else if (rootChannel ++ ".").toList.isPrefixOf name.toList then name
      else rootChannel ++ "." ++ name

/-- A computation that writes log lines and may end in a fault. -/
abbrev Logged (α : Type) : Type := ExceptT Fault (StateM Log) α

namespace Logged

/-- Adds a line to the log. -/
def write (line : Log.Line) : Logged Unit :=
  modify (·.push line)

/-- Writes a line of level `info`. -/
def info (text : String) : Logged Unit :=
  write ⟨.info, text⟩

/-- Writes a line of level `warning`. -/
def warn (text : String) : Logged Unit :=
  write ⟨.warning, text⟩

/-- A computation without log lines. -/
def ofExcept {α : Type} (result : Except Fault α) : Logged α :=
  ExceptT.mk (pure result)

/-- What a computation answers and writes. -/
def outcome {α : Type} (computation : Logged α) : Except Fault α × Log :=
  Id.run (StateT.run (ExceptT.run computation) #[])

end Logged

end TypeAtlas
