import Deduction.Document.Reading
import Deduction.Document.Yaml
import Deduction.Policy

/-!
# Settings

Settings describe a policy: a profile to start from, and overrides for the
supported versions, the conditional minimum and the greatest depth.  Every key
may be written in two ways, but not in both at once.

Not every description makes sense; `Settings.build` names the first fault.
-/

namespace Deduction

/-- The policy that settings start from. -/
inductive Profile where
  | basic
  | conditional
  | disabled
  deriving DecidableEq, Repr

/-- A profile with its overrides. -/
structure Settings where
  profile : Profile
  supported : Option (List Version) := none
  conditionalMinimum : Option Version := none
  maxDepth : Option Nat := none
  deriving DecidableEq, Repr

/-- Why settings describe no policy. -/
inductive SettingsFault where
  | disabledOverridden
  | basicWithMinimum
  | nothingSupported
  | minimumUnsupported (version : Version)
  | zeroDepth
  deriving DecidableEq, Repr

namespace SettingsFault

/-- The fault in words. -/
def message : SettingsFault → String
  | disabledOverridden =>
    "invalid checker configuration: the disabled profile takes no overrides"
  | basicWithMinimum =>
    "invalid checker configuration: the basic profile does not accept conditional proofs"
  | nothingSupported => "invalid checker configuration: SupportedVersions must not be empty"
  | minimumUnsupported version =>
    "invalid rule version " ++ version.text ++
      ": the conditional minimum must be a supported version"
  | zeroDepth => "invalid checker configuration: MaxConditionalDepth must be positive"

end SettingsFault

namespace Profile

/-- The profile of a name. -/
def ofName? : String → Option Profile
  | "basic" => some basic
  | "conditional" => some conditional
  | "disabled" => some disabled
  | _ => none

/-- The policy of a profile without overrides. -/
def policy : Profile → Policy
  | basic => .basic
  | conditional => .conditional
  | disabled => .disabled

end Profile

namespace Settings

/-- Whether something of the profile is overridden. -/
def overrides (s : Settings) : Bool :=
  s.supported.isSome || s.conditionalMinimum.isSome || s.maxDepth.isSome

/-- The policy of a profile other than the disabled one. -/
def buildAccepting (s : Settings) : Except SettingsFault Policy :=
  let base := s.profile.policy
  let supported := s.supported.getD base.supported
  let minimum := s.conditionalMinimum.or base.conditionalMinimum
  let depth := s.maxDepth.getD Policy.defaultDepth
  if s.profile = .basic ∧ s.conditionalMinimum.isSome then .error .basicWithMinimum
  else if supported.isEmpty then .error .nothingSupported
  else
    match minimum.filter (!supported.contains ·) with
    | some version => .error (.minimumUnsupported version)
    | none =>
      if depth = 0 then .error .zeroDepth
      else .ok (Policy.accepting supported minimum depth)

/-- The policy that settings describe. -/
def build (s : Settings) : Except SettingsFault Policy :=
  if s.profile = .disabled then
    if s.overrides then .error .disabledOverridden else .ok .disabled
  else s.buildAccepting

/-- The first way of writing a key, for either way. -/
def canonicalKey : String → String
  | "profile" => "Profile"
  | "supported_versions" => "SupportedVersions"
  | "conditional_minimum" => "ConditionalMinimum"
  | "max_conditional_depth" => "MaxConditionalDepth"
  | key => key

/-- Reads a profile: its name, or an object with the name as its only key and
nothing behind it. -/
def readProfile (d : Document) : Except ReadError Profile := do
  let name ←
    match d with
    | .object [(name, .null)] => pure name
    | d => d.asString
  match Profile.ofName? name with
  | some profile => return profile
  | none => .error (.unknownWord name)

/-- Reads settings. -/
def ofDocument (d : Document) : Except ReadError Settings := do
  let fields : Fields := (← d.asFields).map fun (key, value) => (canonicalKey key, value)
  fields.restrict ["Profile", "SupportedVersions", "ConditionalMinimum", "MaxConditionalDepth"]
  let profile ← fields.required "Profile" readProfile
  let supported ← fields.optional "SupportedVersions" (Document.asList Document.asVersion)
  let minimum ← fields.optional "ConditionalMinimum" Document.asVersion
  let depth ← fields.optional "MaxConditionalDepth" Document.asNatural
  return ⟨profile, supported, minimum, depth⟩

/-- Whether the value of a key is a number. -/
def isNumeric (key : String) : Bool :=
  canonicalKey key = "MaxConditionalDepth"

/-- Reads settings from a YAML text. -/
def ofYaml (text : String) : Except ReadError Settings :=
  match Yaml.parse? text with
  | none => .error (.expected "YAML")
  | some node => ofDocument (node.toDocument isNumeric false)

end Settings

end Deduction
