import TypeAtlas.Number.Double

namespace TypeAtlas

/-- The releases that have a layout. -/
inductive Release
  | v24_0
  | v24_1
  | v24_2
  | v27_0
  | v29_0
  | v31_0
  deriving DecidableEq

namespace Release

/-- All releases in ascending order. -/
def all : List Release := [v24_0, v24_1, v24_2, v27_0, v29_0, v31_0]

/-- The whole number of the tag, which is the version field of the header. -/
def major : Release → Nat
  | v24_0 | v24_1 | v24_2 => 24
  | v27_0 => 27
  | v29_0 => 29
  | v31_0 => 31

/-- The digit after the point of the tag. -/
def minor : Release → Nat
  | v24_1 => 1
  | v24_2 => 2
  | v24_0 | v27_0 | v29_0 | v31_0 => 0

/-- The version tag of a release. -/
def tag (release : Release) : String :=
  toString release.major ++ "." ++ toString release.minor

/-- Releases are ordered by their tags. -/
instance : LT Release := ⟨fun a b => 10 * a.major + a.minor < 10 * b.major + b.minor⟩

instance (a b : Release) : Decidable (a < b) :=
  inferInstanceAs (Decidable (10 * a.major + a.minor < 10 * b.major + b.minor))

/-- Whether a release is another one or comes after it. -/
def isAtLeast (release least : Release) : Bool := !decide (release < least)

/-- The version tag as a number. -/
def value (release : Release) : Double :=
  Double.ofRatio false (10 * release.major + release.minor) 10

/-- The release whose tag is a given number. -/
def ofDouble? (number : Double) : Option Release :=
  all.find? fun release => release.value == number

/-- The releases that share a version field, lowest first. -/
def candidates (version : Int) : List Release :=
  all.filter fun release => (release.major : Int) == version

/-- The tags of all releases as they are shown in a message. -/
def supportedTags : String :=
  ", ".intercalate (all.map tag)

theorem mem_all (release : Release) : release ∈ all := by
  cases release <;> simp [all]

theorem mem_candidates {release : Release} {version : Int} :
    release ∈ candidates version ↔ (release.major : Int) = version := by
  simp [candidates, mem_all]

end Release

end TypeAtlas
