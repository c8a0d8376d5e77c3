import Deduction.Location

/-!
# Diagnostics

A **defect** is a kind of mistake in a proof.  It has a stable code, a stable
number and a fixed description.  A **diagnostic** is a defect found at some
place, with further detail and with the place of the formula that was cited,
where there is one.
-/

namespace Deduction

/-- A kind of mistake in a proof. -/
inductive Defect where
  | missingFormula
  | missingReason
  | repeatedLabel
  | disagreesWithConditions
  | reasonNotAllowed
  | missingReference
  | notProved
  | formulaDiffers
  | ruleUndeclared
  | ruleUnsupported
  | ruleTooOld
  | unknownLabel
  | implicationExpected
  | premiseDiffers
  | conclusionDiffers
  | missingSubstitute
  | badParameters
  | variableGetsBound
  | placeBindsVariable
  | fixedByCondition
  | variableExpected
  | variableIsFree
  | predicateVariableExpected
  | functionVariableExpected
  | emptyConditionalProof
  | nestedTooDeeply
  | conditionalConclusionDiffers
  | propositionDiffers
  | proofsDisabled
  deriving DecidableEq, Repr

namespace Defect

/-- The stable code of a defect. -/
def code : Defect → String
  | missingFormula => "proof.line_must_not_be_null"
  | missingReason => "proof.reason_must_not_be_null"
  | repeatedLabel => "proof.local_label_already_exists"
  | disagreesWithConditions => "proof.conditions_and_formula_dont_agree"
  | reasonNotAllowed => "proof.reason_not_allowed"
  | missingReference => "proof.reference_missing"
  | notProved => "proof.no_reference_to_proved_formula"
  | formulaDiffers => "proof.expected_formula_differs"
  | ruleUndeclared => "proof.rule_not_defined"
  | ruleUnsupported => "proof.rule_not_supported"
  | ruleTooOld => "proof.higher_rule_version_needed"
  | unknownLabel => "proof.local_label_missing"
  | implicationExpected => "proof.implication_expected"
  | premiseDiffers => "proof.must_be_hypothesis_of_first_reference"
  | conclusionDiffers => "proof.current_must_be_conclusion"
  | missingSubstitute => "proof.substitution_formula_missing"
  | badParameters => "proof.only_free_subject_variables_allowed"
  | variableGetsBound => "proof.free_variables_get_bound"
  | placeBindsVariable => "proof.substitution_location_binds_variable"
  | fixedByCondition => "proof.substituted_in_condition"
  | variableExpected => "proof.subject_variable_missing"
  | variableIsFree => "proof.subject_variable_occurs_free"
  | predicateVariableExpected => "proof.predicate_variable_expected"
  | functionVariableExpected => "proof.function_variable_expected"
  | emptyConditionalProof => "proof.conditional_proof_without_lines"
  | nestedTooDeeply => "proof.conditional_proof_too_deep"
  | conditionalConclusionDiffers => "proof.conditional_conclusion_differs"
  | propositionDiffers => "proof.last_line_differs"
  | proofsDisabled => "proof.no_formal_proofs_supported"

/-- The stable number of a defect. -/
def number : Defect → Nat
  | missingFormula => 37010
  | missingReason => 37020
  | repeatedLabel => 37030
  | disagreesWithConditions => 37040
  | reasonNotAllowed => 37050
  | missingReference => 37060
  | notProved => 37070
  | formulaDiffers => 37080
  | ruleUndeclared => 37090
  | ruleUnsupported => 37100
  | ruleTooOld => 37110
  | unknownLabel => 37120
  | implicationExpected => 37130
  | premiseDiffers => 37140
  | conclusionDiffers => 37150
  | missingSubstitute => 37160
  | badParameters => 37170
  | variableGetsBound => 37180
  | placeBindsVariable => 37190
  | fixedByCondition => 37200
  | variableExpected => 37210
  | variableIsFree => 37215
  | predicateVariableExpected => 37220
  | functionVariableExpected => 37225
  | emptyConditionalProof => 37230
  | nestedTooDeeply => 37235
  | conditionalConclusionDiffers => 37240
  | propositionDiffers => 37250
  | proofsDisabled => 37260

/-- The words that open every message about a defect. -/
def description : Defect → String
  | missingFormula => "proof line formula must be present"
  | missingReason => "proof line reason must be present"
  | repeatedLabel => "local label already exists"
  | disagreesWithConditions => "formula does not agree with the active conditions"
  | reasonNotAllowed => "reason is not allowed by this proof checker"
  | missingReference => "reference to proved formula is missing"
  | notProved => "this is no reference to a proved formula"
  | formulaDiffers => "expected formula differs"
  | ruleUndeclared => "proof method was not defined yet"
  | ruleUnsupported => "proof method is not supported"
  | ruleTooOld => "higher proof rule version needed"
  | unknownLabel => "such a local label does not exist"
  | implicationExpected => "implication expected"
  | premiseDiffers => "must be the hypothesis of the first reference"
  | conclusionDiffers => "current formula must be the conclusion of the first reference"
  | missingSubstitute => "substitution formula is missing"
  | badParameters => "only pairwise distinct subject variables are allowed as arguments"
  | variableGetsBound => "free subject variables of the substitute would get bound"
  | placeBindsVariable =>
    "substitution location is in scope of a variable bound in the substitute"
  | fixedByCondition => "substituted variable occurs in an active condition"
  | variableExpected => "subject variable expected"
  | variableIsFree => "subject variable must not occur free"
  | predicateVariableExpected => "predicate variable expected"
  | functionVariableExpected => "function variable expected"
  | emptyConditionalProof => "conditional proof needs at least one proof line"
  | nestedTooDeeply => "conditional proofs are nested too deeply"
  | conditionalConclusionDiffers =>
    "conclusion must be the hypothesis implying the last proof line"
  | propositionDiffers => "last proof line must be identical to the proposition"
  | proofsDisabled => "formal proofs are not supported"

/-- Code and number together. -/
def text (defect : Defect) : String :=
  defect.code ++ " (" ++ defect.number.repr ++ ")"

end Defect

/-- A defect found at a place. -/
structure Diagnostic where
  defect : Defect
  location : Location
  detail : Option String := none
  reference : Option Location := none
  deriving DecidableEq, Repr

namespace Diagnostic

/-- The description, followed by the detail. -/
def message (d : Diagnostic) : String :=
  match d.detail with
  | none => d.defect.description
  | some detail => d.defect.description ++ ": " ++ detail

/-- Code, number and message. -/
def text (d : Diagnostic) : String :=
  d.defect.text ++ ": " ++ d.message

/-- The diagnostic on one line, with its places. -/
def render (d : Diagnostic) : String :=
  let line := d.defect.code ++ " | " ++ d.location.text ++ " | " ++ d.message
  match d.reference with
  | none => line
  | some place => line ++ " | ref " ++ place.text

end Diagnostic

end Deduction
