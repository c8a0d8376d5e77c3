import Deduction.Formula.Symbol
import Deduction.Location

/-!
# Theories

A theory holds what is known before a proof begins: formulas that are proved,
each under a label and with its location, and definitions of constants.

Formulas are compared after **normalization**, which expands the defined
constants.  One pass applies every definition in turn; passes are repeated
until nothing changes, and at most once more often than there are definitions.
When no definition leads back to itself that is enough to expand everything.
-/

namespace Deduction

/-- A constant applied to parameters, and the formula that it abbreviates. -/
structure Definition where
  template : Formula
  definiens : Formula
  deriving DecidableEq, Repr

/-- A proved formula and the place where it stands. -/
structure Proved where
  formula : Formula
  location : Location
  deriving DecidableEq, Repr

/-- Proved formulas, the latest first, and definitions in the order in which
they are applied. -/
structure Theory where
  proved : List (String × Proved) := []
  definitions : List Definition := []
  deriving Repr, Inhabited

namespace Theory

/-- Adds a proved formula; it replaces an earlier one of the same label. -/
def prove (t : Theory) (label : String) (formula : Formula) (location : Location) : Theory :=
  { t with proved := (label, ⟨formula, location⟩) :: t.proved }

/-- Adds a definition after all others. -/
def define (t : Theory) (template definiens : Formula) : Theory :=
  { t with definitions := t.definitions ++ [⟨template, definiens⟩] }

/-- The proved formula of a label. -/
def find? (t : Theory) (label : String) : Option Proved :=
  t.proved.lookup label

/-- Applies every definition once. -/
def expand (t : Theory) (f : Formula) : Formula :=
  t.definitions.foldl (fun f d => f.expandSymbol d.template d.definiens) f

/-- Repeats a step until nothing changes, at most `n` times. -/
def settle (step : Formula → Formula) : Nat → Formula → Formula
  | 0, f => f
  | n + 1, f =>
    let next := step f
    if next = f then f else settle step n next

/-- The formula with its defined constants expanded. -/
def normalize (t : Theory) (f : Formula) : Formula :=
  settle t.expand (t.definitions.length + 1) f

/-- The proved formula of a label, normalized. -/
def normalized? (t : Theory) (label : String) : Option Formula :=
  (t.find? label).map fun p => t.normalize p.formula

/-- Where the proved formula of a label stands. -/
def location? (t : Theory) (label : String) : Option Location :=
  (t.find? label).map Proved.location

end Theory

end Deduction
