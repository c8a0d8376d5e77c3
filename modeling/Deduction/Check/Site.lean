import Deduction.Findings
import Deduction.Formula.Path
import Deduction.Policy
import Deduction.Scope
import Deduction.Theory

/-!
# The site of a check

A **site** is a proof line under check together with all that bears on its
judgement: the rules, the theory and the policy of the whole proof, the
hypotheses that are active, and what the line may cite.

The functions here are the steps that the rules share.  Each of them stops with
a diagnostic or goes on with what it found: the formula that is cited, the
variable that is meant, the agreement with the formula that the rule calls for,
and the version of the rule itself.
-/

namespace Deduction

/-- What stays the same during the check of a proof. -/
structure Setting where
  policy : Policy
  rules : RuleBook
  theory : Theory

/-- An active hypothesis and where it was assumed. -/
structure Condition where
  formula : Formula
  location : Location
  deriving DecidableEq, Repr

/-- A proof line under check. -/
structure Site where
  setting : Setting
  conditions : List Condition
  depth : Nat
  visible : Scope
  location : Location
  formula : Formula

namespace Site

/-- The place of the line's formula. -/
def formulaPlace (s : Site) : Location :=
  s.location.field "formula"

/-- The place of the line's reason. -/
def reasonPlace (s : Site) : Location :=
  s.location.field "reason"

/-- The place of a part of the line's reason. -/
def partPlace (s : Site) (part : String) : Location :=
  s.reasonPlace.field part

/-- A formula with the definitions of the theory expanded. -/
def normalize (s : Site) (f : Formula) : Formula :=
  s.setting.theory.normalize f

/-- The line's formula, normalized. -/
def statement (s : Site) : Formula :=
  s.normalize s.formula

/-- Where the formula of a label stands: the nearest line or hypothesis, or
else the proved formula. -/
def locate? (s : Site) (label : String) : Option Location :=
  ((s.visible.named? label).map Citable.location).or (s.setting.theory.location? label)

/-- Where the cited formula stands, if something is cited. -/
def cited? (s : Site) (reference : Option String) : Option Location :=
  reference.bind s.locate?

/-- Goes on if the test holds, and stops with the diagnostic otherwise. -/
def ensure (test : Bool) (d : Diagnostic) : Except Diagnostic Unit :=
  if test then .ok () else .error d

/-- The normalized formula of the cited line or hypothesis. -/
def citedLine (s : Site) (reference : Option String) (part : String) :
    Except Diagnostic Formula :=
  match reference with
  | none =>
    .error { defect := .missingReference, location := s.partPlace part }
  | some label =>
    match s.visible.named? label with
    | some entry => .ok (s.normalize entry.formula)
    | none =>
      .error { defect := .unknownLabel, location := s.partPlace part, detail := some label }

/-- The normalized formula of the cited hypothesis or proved formula. -/
def citedProved (s : Site) (reference : Option String) (part : String) :
    Except Diagnostic Formula :=
  match reference with
  | none =>
    .error { defect := .missingReference, location := s.partPlace part }
  | some label =>
    match ((s.visible.assumed? label).map fun entry => s.normalize entry.formula).or
        (s.setting.theory.normalized? label) with
    | some formula => .ok formula
    | none =>
      .error { defect := .notProved, location := s.partPlace part, detail := some label }

/-- The name of a variable that the reason gives. -/
def givenVar (s : Site) (given : Option Formula) (part : String) :
    Except Diagnostic String :=
  match given.bind Formula.var? with
  | some x => .ok x
  | none =>
    .error
      { defect := .variableExpected
        location := s.partPlace part
        detail := given.map Formula.text }

/-- A substitute that the reason gives, normalized. -/
def givenSubstitute (s : Site) (given : Option Formula) (part : String) :
    Except Diagnostic Formula :=
  match given with
  | some f => .ok (s.normalize f)
  | none => .error { defect := .missingSubstitute, location := s.partPlace part }

/-- Antecedent and consequent of a cited formula. -/
def citedImplication (s : Site) (f : Formula) (reference : Option String) (part : String) :
    Except Diagnostic (Formula × Formula) :=
  match f.implication? with
  | some sides => .ok sides
  | none =>
    .error
      { defect := .implicationExpected
        location := s.partPlace part
        detail := some f.text
        reference := s.cited? reference }

/-- The line's statement must be the expected formula.  Otherwise the defect is
placed at the first difference. -/
def checkStatement (s : Site) (defect : Defect) (expected : Formula) (cited : Option Location) :
    Except Diagnostic Unit :=
  match Formula.firstDifference? expected s.statement with
  | none => .ok ()
  | some path =>
    .error
      { defect := defect
        location := s.formulaPlace.follow path
        detail := some ("expected " ++ expected.text)
        reference := cited }

/-- What is substituted or quantified must not occur in an active condition,
taken with its definitions expanded. -/
def checkConditions (s : Site) (subject : Formula) (part : String)
    (occurs : Formula → Bool) : Except Diagnostic Unit :=
  match s.conditions.find? fun c => occurs (s.normalize c.formula) with
  | none => .ok ()
  | some c =>
    .error
      { defect := .fixedByCondition
        location := s.partPlace part
        detail := some (subject.text ++ " occurs in " ++ c.formula.text)
        reference := some c.location }

/-- Whether the line is subject to the conditional minimum. -/
def isConditional (s : Site) (rule : Rule) : Bool :=
  !s.conditions.isEmpty || rule = .conditionalProof

/-- The version that a rule needs and does not have. -/
def neededVersion? (s : Site) (rule : Rule) (version : Version) : Option Version :=
  s.setting.policy.conditionalMinimum.filter fun minimum =>
    s.isConditional rule && decide (version < minimum)

/-- The rule must be declared, at a supported version, and at the conditional
minimum where that applies. -/
def checkRule (s : Site) (rule : Rule) : Except Diagnostic Unit :=
  match s.setting.rules.find? rule.name with
  | none =>
    .error
      { defect := .ruleUndeclared
        location := s.reasonPlace
        detail := some rule.name }
  | some key =>
    if !s.setting.policy.supported.contains key.version then
      .error
        { defect := .ruleUnsupported
          location := s.reasonPlace
          detail := some (key.text ++ ", supported: " ++
            ", ".intercalate (s.setting.policy.supported.map Version.text)) }
    else
      match s.neededVersion? rule key.version with
      | none => .ok ()
      | some minimum =>
        .error
          { defect := .ruleTooOld
            location := s.reasonPlace
            detail := some (key.text ++ ", needed: " ++ minimum.text) }

end Site

end Deduction
