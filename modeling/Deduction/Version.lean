/-!
# Versions

A version has three components of 32 bits and is written `major.minor.patch`,
the last two with at least two digits: `0.01.00`.  Reading takes any number of
leading zeros.  Versions are ordered by their components from left to right.

Reading fails for one of three reasons, and the first that applies is given:
the number of components, then for the leftmost bad component that it is not
decimal or that it is too large.
-/

namespace Deduction

/-- A version of an inference rule. -/
structure Version where
  major : UInt32
  minor : UInt32
  patch : UInt32
  deriving DecidableEq, Repr, Inhabited

/-- Why a text is not a version. -/
inductive VersionFault where
  | componentCount
  | notDecimal
  | outOfRange
  deriving DecidableEq, Repr

/-- A text that was rejected, with the reason. -/
structure VersionError where
  text : String
  fault : VersionFault
  deriving DecidableEq, Repr

namespace VersionFault

/-- The reason in words. -/
def reason : VersionFault → String
  | componentCount => "expected three dot-separated components"
  | notDecimal => "components must be non-empty decimal numbers"
  | outOfRange => "component is out of range"

end VersionFault

namespace VersionError

/-- The rejected text and the reason, in words. -/
def message (e : VersionError) : String :=
  "invalid version '" ++ e.text ++ "': " ++ e.fault.reason

end VersionError

namespace Version

/-- The version of the basic rules. -/
def basic : Version := ⟨0, 1, 0⟩

/-- The version that brought conditional proofs. -/
def conditional : Version := ⟨0, 2, 0⟩

/-- Lexicographic comparison of the components. -/
def order (a b : Version) : Ordering :=
  (compare a.major b.major).then ((compare a.minor b.minor).then (compare a.patch b.patch))

instance : LT Version where
  lt a b := a.order b = .lt

instance (a b : Version) : Decidable (a < b) :=
  inferInstanceAs (Decidable (a.order b = .lt))

/-- The larger of two versions. -/
def larger (a b : Version) : Version :=
  if a < b then b else a

/-! ## Text -/

/-- The decimal digits of a number, with zeros in front up to a width. -/
def digits (width n : Nat) : List Char :=
  (Nat.toDigits 10 n).leftpad width '0'

/-- The written form of a version. -/
def text (v : Version) : String :=
  String.ofList
    (digits 1 v.major.toNat ++ '.' :: digits 2 v.minor.toNat ++ '.' :: digits 2 v.patch.toNat)

/-- The parts of a text between its dots. -/
def splitDots : List Char → List (List Char)
  | [] => [[]]
  | c :: cs =>
    if c = '.' then [] :: splitDots cs
    else
      match splitDots cs with
      | [] => [[c]]
      | part :: parts => (c :: part) :: parts

/-- The value of a run of decimal digits. -/
def decimal (cs : List Char) : Nat :=
  cs.foldl (fun n c => 10 * n + (c.toNat - '0'.toNat)) 0

/-- The component that a part of the text stands for. -/
def component (cs : List Char) : Except VersionFault UInt32 :=
  if cs = [] ∨ !cs.all Char.isDigit then .error .notDecimal
  else if decimal cs < UInt32.size then .ok (UInt32.ofNat (decimal cs))
  else .error .outOfRange

/-- The version that the parts of a text stand for. -/
def ofParts : List (List Char) → Except VersionFault Version
  | [major, minor, patch] =>
    match component major with
    | .error fault => .error fault
    | .ok major =>
      match component minor with
      | .error fault => .error fault
      | .ok minor =>
        match component patch with
        | .error fault => .error fault
        | .ok patch => .ok ⟨major, minor, patch⟩
  | _ => .error .componentCount

/-- Reads a version. -/
def parse (text : String) : Except VersionError Version :=
  match ofParts (splitDots text.toList) with
  | .ok v => .ok v
  | .error fault => .error ⟨text, fault⟩

end Version

end Deduction
