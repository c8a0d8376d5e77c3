import Deduction.Check.Site

/-!
# The rules of inference

One check for each rule other than conditional proof.  A check goes through the
demands of its rule in a fixed order and stops at the first that is not met:
what is cited, what the reason gives, the formula that the rule yields, the
active conditions, and last the version of the rule.
-/

namespace Deduction

/-- A quantifier that a generalization introduces. -/
inductive Quantifier where
  | universal
  | existential
  deriving DecidableEq, Repr

namespace Quantifier

/-- The rule that introduces the quantifier. -/
def rule : Quantifier → Rule
  | universal => .universal
  | existential => .existential

/-- The side of the implication that is not quantified. -/
def untouched : Quantifier → Formula → Formula → Formula
  | universal, antecedent, _ => antecedent
  | existential, _, consequent => consequent

/-- The implication with the quantifier on its side. -/
def conclusion (x : String) : Quantifier → Formula → Formula → Formula
  | universal, antecedent, consequent =>
    antecedent.implies (.quantify .universal x consequent)
  | existential, antecedent, consequent =>
    (Formula.quantify .existential x antecedent).implies consequent

end Quantifier

/-- The kind of symbol that a substitution replaces. -/
inductive Schematic where
  | predicate
  | function
  deriving DecidableEq, Repr

namespace Schematic

/-- The rule that replaces symbols of this kind. -/
def rule : Schematic → Rule
  | predicate => .substPredicate
  | function => .substFunction

/-- The operator that applies symbols of this kind. -/
def operator : Schematic → Operator
  | predicate => .predicateVariable
  | function => .functionVariable

/-- The part of a reason that holds the template. -/
def templatePart : Schematic → String
  | predicate => "predicate_variable"
  | function => "function_variable"

/-- The part of a reason that holds the substitute. -/
def substitutePart : Schematic → String
  | predicate => "substitute_formula"
  | function => "substitute_term"

/-- The defect of a reason whose template is of another kind. -/
def defect : Schematic → Defect
  | predicate => .predicateVariableExpected
  | function => .functionVariableExpected

/-- Whether a formula applies a symbol of this kind. -/
def accepts (kind : Schematic) (f : Formula) : Bool :=
  f.operator? = some kind.operator && f.name?.isSome

end Schematic

namespace Site

/-- A line that restates a proved formula or an enclosing hypothesis. -/
def checkAdd (s : Site) (reference : Option String) : Except Diagnostic Unit := do
  let expected ← s.citedProved reference "reference"
  s.checkStatement .formulaDiffers expected (s.cited? reference)
  s.checkRule .add

/-- The new variable must not occur in the binder that is renamed. -/
def checkRoom (s : Site) (binder : Option Formula) (x y : String)
    (reference : Option String) : Except Diagnostic Unit :=
  match binder with
  | none => .ok ()
  | some b =>
    ensure (x = y || !(b.free.contains y || b.bound.contains y))
      { defect := .variableGetsBound
        location := s.partPlace "replacement"
        detail := some ((Formula.var y).text ++ " already occurs in " ++ b.text)
        reference := s.cited? reference }

/-- A line that renames one binder of the cited line. -/
def checkRename (s : Site) (reference : Option String)
    (current replacement : Option Formula) (occurrence : UInt64) :
    Except Diagnostic Unit := do
  let source ← s.citedLine reference "reference"
  let x ← s.givenVar current "original"
  let y ← s.givenVar replacement "replacement"
  s.checkRoom (source.nthBinder? (.var x) occurrence.toNat) x y reference
  s.checkStatement .formulaDiffers (source.renameBinder (.var x) (.var y) occurrence.toNat)
    (s.cited? reference)
  s.checkRule .rename

/-- A line that concludes `B` from `A → B` and `A`. -/
def checkModusPonens (s : Site) (implication premise : Option String) :
    Except Diagnostic Unit := do
  let first ← s.citedLine implication "reference1"
  let second ← s.citedLine premise "reference2"
  let (antecedent, consequent) ← s.citedImplication first implication "reference1"
  ensure (second = antecedent)
    { defect := .premiseDiffers
      location := s.partPlace "reference2"
      detail := some ("expected " ++ antecedent.text)
      reference := s.cited? implication }
  s.checkStatement .conclusionDiffers consequent (s.cited? implication)
  s.checkRule .modusPonens

/-- A line that quantifies one side of the cited implication. -/
def checkGeneralization (s : Site) (quantifier : Quantifier) (reference : Option String)
    (subject : Option Formula) : Except Diagnostic Unit := do
  let source ← s.citedLine reference "reference"
  let (antecedent, consequent) ← s.citedImplication source reference "reference"
  let x ← s.givenVar subject "subject_variable"
  let untouched := quantifier.untouched antecedent consequent
  ensure (!untouched.free.contains x)
    { defect := .variableIsFree
      location := s.partPlace "subject_variable"
      detail := some ((Formula.var x).text ++ " is free in " ++ untouched.text)
      reference := s.cited? reference }
  s.checkStatement .formulaDiffers (quantifier.conclusion x antecedent consequent)
    (s.cited? reference)
  s.checkConditions (.var x) "subject_variable" fun c => c.free.contains x
  s.checkRule quantifier.rule

/-- No free variable of the substitute, parameters apart, may be bound in the
formula that it is put into. -/
def checkCapture (s : Site) (source substitute : Formula) (params : List Formula)
    (part : String) (reference : Option String) : Except Diagnostic Unit :=
  match substitute.free.find? fun x =>
      !params.contains (.var x) && source.bound.contains x with
  | none => .ok ()
  | some x =>
    .error
      { defect := .variableGetsBound
        location := s.partPlace part
        detail := some (Formula.var x).text
        reference := s.cited? reference }

/-- A line that puts a term for a free variable of the cited line. -/
def checkSubstFree (s : Site) (reference : Option String)
    (subject substitute : Option Formula) : Except Diagnostic Unit := do
  let source ← s.citedLine reference "reference"
  let x ← s.givenVar subject "subject_variable"
  let term ← s.givenSubstitute substitute "substitute_term"
  s.checkCapture source term [] "substitute_term" reference
  s.checkStatement .formulaDiffers (source.replaceFree (.var x) term) (s.cited? reference)
  s.checkConditions (.var x) "subject_variable" fun c => c.free.contains x
  s.checkRule .substFree

/-- The template that the reason gives. -/
def givenTemplate (s : Site) (kind : Schematic) (given : Option Formula) :
    Except Diagnostic Formula :=
  match given.filter kind.accepts with
  | some template => .ok template
  | none =>
    .error
      { defect := kind.defect
        location := s.partPlace kind.templatePart
        detail := some ("found " ++ (given.map Formula.text).getD "nothing") }

/-- The parameters of a template must be distinct, and they must be variables.
A parameter comes after the name among the children of the template. -/
def checkParameters (s : Site) (part : String) (params : List Formula) :
    Except Diagnostic Unit := do
  ensure (params.eraseDups.length = params.length)
    { defect := .badParameters
      location := s.partPlace part
      detail := some "parameters repeat" }
  match params.zipIdx.find? fun param => param.1.var?.isNone with
  | none => .ok ()
  | some (param, index) =>
    .error
      { defect := .badParameters
        location := (s.partPlace part).item "element" (index + 1)
        detail := some param.text }

/-- A line that puts a formula or a term for a predicate or function variable of
the cited line. -/
def checkSubstSymbol (s : Site) (kind : Schematic) (reference : Option String)
    (template substitute : Option Formula) : Except Diagnostic Unit := do
  let source ← s.citedLine reference "reference"
  let pattern ← s.givenTemplate kind template
  let replacement ← s.givenSubstitute substitute kind.substitutePart
  s.checkStatement .formulaDiffers (source.replaceSymbol pattern replacement) (s.cited? reference)
  s.checkParameters kind.templatePart pattern.arguments
  s.checkCapture source replacement pattern.arguments kind.substitutePart reference
  ensure (!source.applicationMeets pattern replacement.bound)
    { defect := .placeBindsVariable
      location := s.partPlace kind.substitutePart
      detail := some pattern.text
      reference := s.cited? reference }
  s.checkConditions pattern kind.templatePart fun c => c.containsApplication pattern
  s.checkRule kind.rule

end Site

end Deduction
