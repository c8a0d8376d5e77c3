import Deduction.Formula
import Deduction.Rule

/-!
# Proof lines

A proof is a list of lines.  A line states a formula, gives a reason for it
and may carry a label by which later lines cite it.  Parts of a line may be
absent; the check reports that rather than the type forbidding it.

A conditional proof is a reason that holds a proof of its own: under a
hypothesis it proves further lines, and the line that carries it concludes that
the hypothesis implies the last of them.
-/

namespace Deduction

/-- The assumption that opens a conditional proof. -/
structure Hypothesis where
  label : Option String := none
  formula : Option Formula := none
  deriving DecidableEq, Repr, Inhabited

mutual

/-- Why a line holds. -/
inductive Reason where
  /-- The formula is a proved formula or an enclosing hypothesis. -/
  | add (reference : Option String)
  /-- The formula is the cited one with one binder renamed. -/
  | rename (reference : Option String) (current replacement : Option Formula)
      (occurrence : UInt64)
  /-- From `A → B` and `A` follows `B`. -/
  | modusPonens (implication premise : Option String)
  /-- A term is put for a free subject variable. -/
  | substFree (reference : Option String) (subject substitute : Option Formula)
  /-- A formula is put for a predicate variable. -/
  | substPredicate (reference : Option String) (template substitute : Option Formula)
  /-- A term is put for a function variable. -/
  | substFunction (reference : Option String) (template substitute : Option Formula)
  /-- From `A → B` follows `A → ∀x B`. -/
  | universal (reference : Option String) (subject : Option Formula)
  /-- From `A → B` follows `∃x A → B`. -/
  | existential (reference : Option String) (subject : Option Formula)
  /-- The hypothesis implies the last of the lines. -/
  | conditionalProof (hypothesis : Hypothesis) (lines : List Line)

/-- One line of a proof. -/
structure Line where
  label : Option String
  formula : Option Formula
  reason : Option Reason

end

namespace Reason

/-- The rule a reason appeals to. -/
def rule : Reason → Rule
  | add .. => .add
  | rename .. => .rename
  | modusPonens .. => .modusPonens
  | substFree .. => .substFree
  | substPredicate .. => .substPredicate
  | substFunction .. => .substFunction
  | universal .. => .universal
  | existential .. => .existential
  | conditionalProof .. => .conditionalProof

end Reason

end Deduction
