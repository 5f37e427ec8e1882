import TypeAtlas.Fault
import TypeAtlas.Number.Double
import TypeAtlas.Release
import TypeAtlas.Text.Basic
import TypeAtlas.Text.Quoted

namespace TypeAtlas

/-- A value given for an option. A number with a point or an exponent keeps its literal. -/
inductive Setting
  | absent
  | flag (value : Bool)
  | integer (value : Int)
  | real (literal : String)
  | text (value : String)
  | sequence (items : List Setting)
  | mapping (keys : List String) (values : List Setting)

namespace Setting

def shownFlag (value : Bool) : String :=
  if value then "True" else "False"

def shownText (value : String) : String :=
  String.ofList (Text.quoted value.toList)

/-- Keys and values that stand at the same place. -/
def shownPairs : List String → List String → List String
  | key :: keys, value :: values => (shownText key ++ ": " ++ value) :: shownPairs keys values
  | _, _ => []

mutual

/-- A setting as it is shown in a message. -/
def shown : Setting → String
  | absent => "None"
  | flag value => shownFlag value
  | integer value => toString value
  | real literal => literal
  | text value => shownText value
  | sequence items => "[" ++ ", ".intercalate (shownAll items) ++ "]"
  | mapping keys values =>
      "\x7b" ++ ", ".intercalate (shownPairs keys (shownAll values)) ++ "\x7d"

def shownAll : List Setting → List String
  | [] => []
  | item :: items => item.shown :: shownAll items

end

def plain : Setting → String
  | text value => value
  | other => other.shown

end Setting

end TypeAtlas

namespace TypeAtlas.Address

/-- The greatest address. -/
def greatest : Nat := 0xFFFFFFFFFFFFFFFF

/-- The number of digits of the greatest address. -/
def mostDigits : Nat := 16

/-- A text without the mark of hexadecimal numbers. -/
def dropMark : List Char → List Char
  | '0' :: 'x' :: rest => rest
  | '0' :: 'X' :: rest => rest
  | cs => cs

def ofChars? (cs : List Char) : Option Nat :=
  let digits := dropMark (Text.trim cs)
  if mostDigits < digits.length then none
  else (Hexadecimal.toNat? digits).filter fun address => decide (0 < address)

def invalid (setting : Setting) : Fault :=
  { kind := .invalidOption, message := "Invalid address: " ++ setting.shown }

def parse (setting : Setting) : Except Fault Nat :=
  match setting with
  | .integer value =>
      if 0 < value ∧ value ≤ greatest then .ok value.toNat else .error (invalid setting)
  | .text value =>
      match ofChars? value.toList with
      | some address => .ok address
      | none => .error (invalid setting)
  | _ => .error (invalid setting)

end TypeAtlas.Address

namespace TypeAtlas.Version

def invalid (setting : Setting) : Fault :=
  { kind := .invalidOption, message := "Invalid metadata version: " ++ setting.shown }

def unsupported (setting : Setting) : Fault :=
  { kind := .unsupportedMetadataVersion
    message := "Unsupported metadata version " ++ setting.plain ++ ", supported: " ++
      Release.supportedTags }

def tooLarge : Fault :=
  { kind := .outOfRange, message := "int too large to convert to float" }

/-- The number that a setting of a version stands for. -/
def number (setting : Setting) : Except Fault Double :=
  match setting with
  | .integer value =>
      match Double.ofInt value with
      | .infinite _ => .error tooLarge
      | double => .ok double
  | .real literal =>
      match Double.ofChars? literal.toList with
      | some double => .ok double
      | none => .error (invalid setting)
  | .text value =>
      match Double.ofChars? value.toList with
      | some double => .ok double
      | none => .error (invalid setting)
  | _ => .error (invalid setting)

def parse (setting : Setting) : Except Fault Release := do
  let double ← number setting
  match Release.ofDouble? double with
  | some release => .ok release
  | none => .error (unsupported setting)

end TypeAtlas.Version

namespace TypeAtlas

/-- Checked options. -/
structure Options where
  /-- Use the layout of this release instead of detecting one. -/
  versionOverride : Option Release := none
  /-- Treat the image as a memory dump taken at this address. -/
  dumpBase : Option Nat := none
  /-- The address of the code registration. -/
  codeRegistration : Option Nat := none
  /-- The address of the metadata registration. -/
  metadataRegistration : Option Nat := none
  /-- Look up exported registration symbols. -/
  symbolSearch : Bool := true
  /-- How many workers may share the work. The answers do not depend on it. -/
  maxWorkers : Nat := 4

/-- The settings that options are built from. -/
structure Settings where
  versionOverride : Setting := .absent
  dumpBase : Setting := .absent
  codeRegistration : Setting := .absent
  metadataRegistration : Setting := .absent
  symbolSearch : Setting := .flag true
  maxWorkers : Setting := .integer 4

namespace Options

/-- An absent setting stays absent, any other one is checked. -/
def optional {α : Type} (check : Setting → Except Fault α) (setting : Setting) :
    Except Fault (Option α) :=
  match setting with
  | .absent => .ok none
  | present => (check present).map some

def parseSymbolSearch (setting : Setting) : Except Fault Bool :=
  match setting with
  | .flag value => .ok value
  | _ => .error { kind := .invalidOption, message := "Invalid symbol_search: " ++ setting.shown }

def parseMaxWorkers (setting : Setting) : Except Fault Nat :=
  match setting with
  | .integer (.ofNat (n + 1)) => .ok (n + 1)
  | _ => .error { kind := .invalidOption, message := "Invalid max_workers: " ++ setting.shown }

/-- The options that some settings stand for. -/
def ofSettings (settings : Settings) : Except Fault Options := do
  let versionOverride ← optional Version.parse settings.versionOverride
  let dumpBase ← optional Address.parse settings.dumpBase
  let codeRegistration ← optional Address.parse settings.codeRegistration
  let metadataRegistration ← optional Address.parse settings.metadataRegistration
  let symbolSearch ← parseSymbolSearch settings.symbolSearch
  let maxWorkers ← parseMaxWorkers settings.maxWorkers
  return { versionOverride, dumpBase, codeRegistration, metadataRegistration, symbolSearch,
           maxWorkers }

def shownAddress (address : Option Nat) : String :=
  match address with
  | none => "None"
  | some value => Hexadecimal.ofNat value

def shown (options : Options) : String :=
  "ResolverOptions(version_override=" ++ ((options.versionOverride.map Release.tag).getD "None") ++
    ", dump_base=" ++ shownAddress options.dumpBase ++
    ", code_registration=" ++ shownAddress options.codeRegistration ++
    ", metadata_registration=" ++ shownAddress options.metadataRegistration ++
    ", symbol_search=" ++ Setting.shownFlag options.symbolSearch ++
    ", max_workers=" ++ toString options.maxWorkers ++ ")"

end Options

end TypeAtlas
