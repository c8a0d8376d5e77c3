import Deduction.Formula
import Deduction.Location

/-!
# Scopes

The scope of a proof line is what it may cite by a label: earlier lines of the
same proof, the hypotheses of the conditional proofs around it, and the lines
before those in the proofs around.  It is one flat list with the nearest entry
first, so the nearest entry of a label is the one that is cited.

A hypothesis counts as a proved formula as well as a line.
-/

namespace Deduction

/-- A line or a hypothesis that can be cited, with its formula as it is
written. -/
structure Citable where
  label : String
  formula : Formula
  location : Location
  assumed : Bool
  deriving DecidableEq, Repr

/-- What can be cited, the nearest entry first. -/
abbrev Scope := List Citable

namespace Scope

/-- The nearest entry of a label. -/
def named? (scope : Scope) (label : String) : Option Citable :=
  scope.find? fun entry => entry.label = label

/-- The innermost hypothesis of a label. -/
def assumed? (scope : Scope) (label : String) : Option Citable :=
  scope.find? fun entry => entry.assumed && entry.label = label

/-- The entries of other labels. -/
def without (scope : Scope) (label : String) : Scope :=
  scope.filter fun entry => entry.label ≠ label

end Scope

end Deduction
