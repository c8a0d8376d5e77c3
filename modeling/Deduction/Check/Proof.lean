import Deduction.Check.Rules
import Deduction.Formula.WellFormed
import Deduction.Line

/-!
# Checking a proof

A proof is checked line by line.  A line that lacks its formula or its reason
is reported and passed over.  Any other line has its label recorded, then it has
to agree with the active conditions, and then its reason is judged.  A line that
fails may still be cited; the check never stops before the last line.

The lines of a conditional proof form a **body** of their own.  They see
everything that the line with the conditional proof sees, and the hypothesis.
Once the conditional proof ends its lines are out of sight.

While a line is checked its own label does not stand for an earlier line of the
same body.
-/

namespace Deduction

/-- A list of lines under check: of a whole proof, or of a conditional proof. -/
structure Body where
  setting : Setting
  location : Location
  conditions : List Condition
  outer : Scope
  depth : Nat

namespace Body

/-- The place of a line. -/
def place (b : Body) (index : Nat) : Location :=
  b.location.item "line" index

/-- What a line may cite, after the lines `here` of the same body. -/
def visible (b : Body) (here : Scope) (label : Option String) : Scope :=
  (match label with
    | some label => here.without label
    | none => here) ++ b.outer

/-- The site of a line. -/
def site (b : Body) (here : Scope) (index : Nat) (label : Option String)
    (formula : Formula) : Site where
  setting := b.setting
  conditions := b.conditions
  depth := b.depth
  visible := b.visible here label
  location := b.place index
  formula := formula

/-- The lines that can be cited after a line, if it has a label that one
included. -/
def extend (b : Body) (here : Scope) (index : Nat) (label : Option String)
    (formula : Formula) : Scope :=
  match label with
  | none => here
  | some label =>
    { label := label
      formula := formula
      location := b.place index
      assumed := false } :: here

/-- Reports a label that is in use already. -/
def checkLabel (b : Body) (here : Scope) (index : Nat) : Option String → Findings
  | none => {}
  | some label =>
    match (here ++ b.outer).named? label with
    | none => {}
    | some entry =>
      .report
        { defect := .repeatedLabel
          location := (b.place index).field "label"
          detail := some label
          reference := some entry.location }

/-- Why the active conditions together do not imply a well-formed formula, if
that is so. -/
def disagreement? (b : Body) (formula : Formula) : Option Malformation :=
  (Formula.conjunction? (b.conditions.map Condition.formula)).bind fun premise =>
    match (premise.implies formula).check .formula with
    | .ok () => none
    | .error offence => some offence

end Body

namespace Site

/-- A conditional proof must be allowed, have a hypothesis and lines, and not
be nested too deeply.  Gives the formula that is assumed. -/
def openConditional (s : Site) (hypothesis : Hypothesis) (lines : List Line) :
    Except Diagnostic Formula := do
  ensure s.setting.policy.conditionalMinimum.isSome
    { defect := .reasonNotAllowed
      location := s.reasonPlace
      detail := some Rule.conditionalProof.name }
  match hypothesis.formula with
  | none =>
    .error
      { defect := .missingFormula
        location := (s.partPlace "hypothesis").field "formula" }
  | some assumption =>
    ensure (!lines.isEmpty)
      { defect := .emptyConditionalProof, location := s.partPlace "lines" }
    ensure (s.depth < s.setting.policy.maxDepth)
      { defect := .nestedTooDeeply
        location := s.reasonPlace
        detail := some ("at most " ++ s.setting.policy.maxDepth.repr ++ " levels") }
    .ok assumption

/-- Reports a label of the hypothesis that is in use already. -/
def checkHypothesisLabel (s : Site) (label : Option String) : Findings :=
  match label.bind s.visible.named?, label with
  | some entry, some label =>
    .report
      { defect := .repeatedLabel
        location := (s.partPlace "hypothesis").field "label"
        detail := some label
        reference := some entry.location }
  | _, _ => {}

/-- The body of a conditional proof under an assumption. -/
def conditionalBody (s : Site) (label : Option String) (assumption : Formula) : Body where
  setting := s.setting
  location := s.reasonPlace
  conditions := s.conditions ++
    [{ formula := assumption, location := (s.partPlace "hypothesis").field "formula" }]
  outer :=
    (label.map fun label =>
      { label := label
        formula := assumption
        location := s.partPlace "hypothesis"
        assumed := true : Citable }).toList ++ s.visible
  depth := s.depth + 1

/-- The line with a conditional proof must state that the assumption implies
the last line. -/
def checkConclusion (s : Site) (assumption last : Formula) : Except Diagnostic Unit := do
  ensure s.statement.implication?.isSome
    { defect := .implicationExpected
      location := s.formulaPlace
      detail := some s.statement.text }
  s.checkStatement .conditionalConclusionDiffers
    ((s.normalize assumption).implies (s.normalize last)) none
  s.checkRule .conditionalProof

/-- The verdict at the end of a conditional proof.  Without a formula on its
last line there is nothing to conclude. -/
def closeConditional (s : Site) (assumption : Formula) (last : Option Formula)
    (innerPassed : Bool) : Verdict :=
  match last with
  | none => ⟨{}, false⟩
  | some last =>
    let verdict := Verdict.ofCheck (s.checkConclusion assumption last)
    ⟨verdict.found, verdict.passed && innerPassed⟩

end Site

mutual

/-- Judges the reason of a line. -/
def judge (s : Site) : Reason → Verdict
  | .add reference => .ofCheck (s.checkAdd reference)
  | .rename reference current replacement occurrence =>
    .ofCheck (s.checkRename reference current replacement occurrence)
  | .modusPonens implication premise => .ofCheck (s.checkModusPonens implication premise)
  | .substFree reference subject substitute =>
    .ofCheck (s.checkSubstFree reference subject substitute)
  | .substPredicate reference template substitute =>
    .ofCheck (s.checkSubstSymbol .predicate reference template substitute)
  | .substFunction reference template substitute =>
    .ofCheck (s.checkSubstSymbol .function reference template substitute)
  | .universal reference subject =>
    .ofCheck (s.checkGeneralization .universal reference subject)
  | .existential reference subject =>
    .ofCheck (s.checkGeneralization .existential reference subject)
  | .conditionalProof hypothesis lines =>
    match s.openConditional hypothesis lines with
    | .error d => ⟨.report d, false⟩
    | .ok assumption =>
      let inner := checkLines (s.conditionalBody hypothesis.label assumption) 0 [] lines
      let last := lines.getLast?.bind Line.formula
      let closing := s.closeConditional assumption last inner.errors.isEmpty
      ⟨s.checkHypothesisLabel hypothesis.label ++
        .note (.entered s.reasonPlace (s.depth + 1)) ++ inner ++
        .note (.left s.reasonPlace inner.errors.length) ++ closing.found, closing.passed⟩

/-- Checks the lines of a body from the one with the given index on, after the
lines `here` that can be cited. -/
def checkLines (b : Body) (index : Nat) (here : Scope) : List Line → Findings
  | [] => {}
  | ⟨_, none, _⟩ :: rest =>
    .report { defect := .missingFormula, location := (b.place index).field "formula" } ++
      checkLines b (index + 1) here rest
  | ⟨_, some _, none⟩ :: rest =>
    .report { defect := .missingReason, location := (b.place index).field "reason" } ++
      checkLines b (index + 1) here rest
  | ⟨label, some formula, some reason⟩ :: rest =>
    let judgement :=
      match b.disagreement? formula with
      | some offence =>
        .report
          { defect := .disagreesWithConditions
            location := (b.place index).field "formula"
            detail := some offence.message }
      | none =>
        let verdict := judge (b.site here index label formula) reason
        verdict.found ++ .note (.judged (b.place index) reason.rule verdict.passed)
    b.checkLabel here index label ++ judgement ++
      checkLines b (index + 1) (b.extend here index label formula) rest

end

/-- The last line must be the proposition, as it is written.  A last line
without a formula has been reported already. -/
def checkLast (location : Location) (proposition : Formula) (lines : List Line) : Findings :=
  match lines.getLast? with
  | none => .report { defect := .propositionDiffers, location := location }
  | some line =>
    match line.formula.bind (Formula.firstDifference? proposition) with
    | none => {}
    | some path =>
      .report
        { defect := .propositionDiffers
          location := ((location.item "line" (lines.length - 1)).field "formula").follow path
          detail := some ("expected " ++ proposition.text) }

/-- **The check of a proof.**  The proof of the proposition is correct when
there are no errors. -/
def checkProof (setting : Setting) (location : Location) (proposition : Formula)
    (lines : List Line) : Findings :=
  let start := Findings.note (.checking location lines.length)
  if setting.policy.acceptsProofs then
    let body := checkLines
      { setting := setting, location := location, conditions := [], outer := [], depth := 0 }
      0 [] lines
    let found := body ++ checkLast location proposition lines
    start ++ found ++ .note (.finished location found.errors.length)
  else
    start ++ { errors := [{ defect := .proofsDisabled, location := location }] }

end Deduction
