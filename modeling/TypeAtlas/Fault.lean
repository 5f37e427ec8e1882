import TypeAtlas.Number.Hexadecimal

namespace TypeAtlas

/-- The kinds of fault. Four members stand for a family as a whole. -/
inductive Fault.Kind
  /-- No known magic value matched. -/
  | unsupportedFormat
  /-- A structure declared by an image lies past the end of its buffer. -/
  | truncatedImage
  /-- A table declared by a metadata header lies past the end of the blob. -/
  | truncatedMetadata
  /-- Segments of an image overlap or are not ordered. -/
  | malformedLayout
  /-- Records of a metadata table are inconsistent with their declaration. -/
  | malformedMetadata
  /-- A metadata version has no layout. -/
  | unsupportedMetadataVersion
  /-- A reference points outside of its target table. -/
  | danglingTypeReference
  /-- A containment or inheritance chain does not end. -/
  | cyclicTypeNesting
  /-- An address lies outside of the expected segment. -/
  | addressOutOfBounds
  /-- The methods of a module cannot be aligned with its pointers. -/
  | addressResolutionAmbiguous
  /-- A runtime registration structure could not be found. -/
  | registrationNotFound
  /-- The value of an option is malformed. -/
  | invalidOption
  /-- The bytes of an image or a metadata blob cannot be parsed. -/
  | structural
  /-- The tables do not form a consistent type graph. -/
  | graph
  /-- An address could not be resolved. -/
  | resolution
  /-- Any fault of the families above. -/
  | general
  /-- A number does not fit the width it is converted to. It belongs to no family. -/
  | outOfRange
  /-- Bytes that have to write a text do not. It belongs to no family. -/
  | notText
  /-- Calls are nested deeper than they may be. It belongs to no family. -/
  | nestedTooDeep
  deriving DecidableEq

namespace Fault.Kind

/-- The families that a kind belongs to, innermost first. -/
def families : Fault.Kind → List Fault.Kind
  | unsupportedFormat | truncatedImage | truncatedMetadata | malformedLayout | malformedMetadata
  | unsupportedMetadataVersion => [structural, general]
  | danglingTypeReference | cyclicTypeNesting => [graph, general]
  | addressOutOfBounds | addressResolutionAmbiguous | registrationNotFound => [resolution, general]
  | invalidOption | structural | graph | resolution => [general]
  | general | outOfRange | notText | nestedTooDeep => []

/-- Whether a kind is another one or a member of its family. -/
def isA (kind ancestor : Fault.Kind) : Bool :=
  kind == ancestor || kind.families.contains ancestor

/-- The name under which an issue is logged. -/
def name : Fault.Kind → String
  | unsupportedFormat => "UnsupportedFormat"
  | truncatedImage => "TruncatedImage"
  | truncatedMetadata => "TruncatedMetadata"
  | malformedLayout => "MalformedLayout"
  | malformedMetadata => "MalformedMetadata"
  | unsupportedMetadataVersion => "UnsupportedMetadataVersion"
  | danglingTypeReference => "DanglingTypeReference"
  | cyclicTypeNesting => "CyclicTypeNesting"
  | addressOutOfBounds => "AddressOutOfBounds"
  | addressResolutionAmbiguous => "AddressResolutionAmbiguous"
  | registrationNotFound => "RegistrationNotFound"
  | invalidOption => "InvalidOption"
  | structural => "StructuralError"
  | graph => "GraphError"
  | resolution => "ResolutionError"
  | general => "Error"
  | outOfRange => "OutOfRange"
  | notText => "NotText"
  | nestedTooDeep => "NestedTooDeep"

end Fault.Kind

/-- A fault with the table, the record index and the offset or address it concerns, where known. -/
structure Fault where
  kind : Fault.Kind
  message : String
  table : Option String := none
  index : Option Int := none
  offset : Option Int := none
  deriving DecidableEq

namespace Fault

/-- The known places of a fault, in the order in which they are shown. -/
def context (fault : Fault) : List String :=
  (fault.table.map ("table=" ++ ·)).toList ++
    (fault.index.map fun i => "index=" ++ toString i).toList ++
    (fault.offset.map fun o => "offset=" ++ Hexadecimal.ofInt o).toList

/-- The message, followed by the known places in brackets. -/
def text (fault : Fault) : String :=
  match fault.context with
  | [] => fault.message
  | places => fault.message ++ " (" ++ ", ".intercalate places ++ ")"

end Fault

end TypeAtlas
